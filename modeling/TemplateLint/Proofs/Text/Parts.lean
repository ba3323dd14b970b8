import TemplateLint.Text

/-!
# Parts between separators

Cutting a text at a separator is the usual splitting of a list.  No part has
the separator, and a part has only characters of the text.
-/

namespace TemplateLint.Text

theorem parts_eq_splitOn (separator : Char) (text : Text) :
    parts separator text = text.splitOn separator := by
  induction text with
  | nil => rfl
  | cons c text induction =>
      rw [List.splitOn_cons_eq_if_modifyHead, ← induction, parts, parts, cut]
      by_cases same : c = separator <;> simp [same]

theorem not_mem_of_mem_parts {separator : Char} {text part : Text}
    (member : part ∈ parts separator text) : separator ∉ part := by
  induction text generalizing part with
  | nil =>
      rw [show part = [] from List.mem_singleton.mp member]
      exact List.not_mem_nil
  | cons c text induction =>
      rw [parts, cut] at member
      by_cases same : c = separator
      · rw [if_pos same] at member
        rcases List.mem_cons.mp member with rfl | later
        · exact List.not_mem_nil
        · exact induction later
      · rw [if_neg same] at member
        rcases List.mem_cons.mp member with rfl | later
        · rw [List.mem_cons, not_or]
          exact ⟨Ne.symm same, induction (.head _)⟩
        · exact induction (.tail _ later)

theorem mem_of_mem_parts {separator c : Char} {text part : Text}
    (member : part ∈ parts separator text) (inPart : c ∈ part) : c ∈ text := by
  induction text generalizing part with
  | nil =>
      rw [show part = [] from List.mem_singleton.mp member] at inPart
      exact inPart
  | cons first text induction =>
      rw [parts, cut] at member
      by_cases same : first = separator
      · rw [if_pos same] at member
        rcases List.mem_cons.mp member with rfl | later
        · cases inPart
        · exact .tail _ (induction later inPart)
      · rw [if_neg same] at member
        rcases List.mem_cons.mp member with rfl | later
        · rcases List.mem_cons.mp inPart with rfl | inRest
          · exact .head _
          · exact .tail _ (induction (.head _) inRest)
        · exact .tail _ (induction (.tail _ later) inPart)

theorem parts_of_not_mem {separator : Char} {part : Text}
    (outside : separator ∉ part) : parts separator part = [part] := by
  rw [parts_eq_splitOn]
  exact List.splitOn_eq_singleton outside

theorem parts_append {separator : Char} {part : Text}
    (outside : separator ∉ part) (rest : Text) :
    parts separator (part ++ separator :: rest) =
      part :: parts separator rest := by
  rw [parts_eq_splitOn, parts_eq_splitOn]
  exact List.splitOn_append_cons_self_of_not_mem outside rest

end TemplateLint.Text
