import TemplateLint.Proofs.Engine.Single

/-!
# Texts that are mended line by line

A linter that looks at one line after the other, and corrects each of them on
its own, changes the lines of a text one by one.
-/

namespace TemplateLint

open Text Script

section Visits

variable {α : Type} {visit : Nat → Text → List α}

/-- Nothing is said of lines that pass a test, wherever they stand. -/
theorem overLines_eq_nil_iff {test : Text → Prop}
    (silent : ∀ position line, visit position line = [] ↔ test line)
    {position : Nat} {lines : List Text} :
    overLines visit position lines = [] ↔ ∀ line ∈ lines, test line := by
  induction lines generalizing position with
  | nil => simp [overLines]
  | cons line lines induction =>
      rw [overLines, List.append_eq_nil_iff, silent, induction, List.forall_mem_cons]

theorem map_overLines {β : Type} (change : α → β) (position : Nat)
    (lines : List Text) :
    (overLines visit position lines).map change =
      overLines (fun position line => (visit position line).map change)
        position lines := by
  induction lines generalizing position with
  | nil => rfl
  | cons line lines induction =>
      rw [overLines, overLines, List.map_append, induction]

end Visits

/-- The text with each of its lines changed. -/
def Text.mapLines (change : Text → Text) (text : Text) : Text :=
  join ['\n'] (text.lines.map change)

/-- Lines stay lines if no change brings in a newline. -/
theorem Text.lines_mapLines {change : Text → Text}
    (single : ∀ {line : Text}, '\n' ∉ line → '\n' ∉ change line) (text : Text) :
    (text.mapLines change).lines = text.lines.map change := by
  apply lines_join
  · intro line member
    obtain ⟨own, inText, rfl⟩ := List.mem_map.mp member
    exact single (not_mem_of_mem_parts inText)
  · simpa using lines_ne_nil text

/-- The findings in a line change it by a script. -/
def ChangesLine (visit : Nat → Text → List Finding) (change : Text → Text) : Prop :=
  ∀ line, ∃ script, before script = line ∧ after script = change line ∧
    ∀ position, made position script =
      (visit position line).filterMap (·.correction)

namespace ChangesLine

variable {visit : Nat → Text → List Finding} {change : Text → Text}

/-- The scripts of the lines are one script, which keeps the newlines. -/
theorem exists_script (changes : ChangesLine visit change) (position : Nat)
    (text : Text) :
    ∃ script, before script = text ∧
      after script = text.mapLines change ∧
      made position script =
        (overLines visit position text.lines).filterMap (·.correction) := by
  induction text using lines_induction generalizing position with
  | last line single =>
      obtain ⟨script, goesThrough, leaves, makes⟩ := changes line
      rw [mapLines, lines_of_not_mem single]
      refine ⟨script, goesThrough, ?_, ?_⟩
      · rw [leaves, List.map_singleton, join, List.intercalate_singleton]
      · rw [makes, overLines, overLines, List.append_nil]
  | more line rest single induction =>
      obtain ⟨script, goesThrough, leaves, makes⟩ := changes line
      obtain ⟨later, laterThrough, laterLeaves, laterMakes⟩ :=
        induction (position + line.length + 1)
      rw [mapLines, lines_append rest single]
      refine ⟨script ++ .keep '\n' :: later, ?_, ?_, ?_⟩
      · rw [before_append, goesThrough, before_keep, laterThrough]
      · have some_line : rest.lines.map change ≠ [] := by
          simpa using lines_ne_nil rest
        rw [after_append, leaves, after_keep, laterLeaves, List.map_cons,
          join_cons some_line, mapLines]
      · rw [made_append, makes, goesThrough, made, laterMakes, overLines,
          List.filterMap_append]

/-- A text is mended by its lines being changed. -/
theorem mends (changes : ChangesLine visit change) {text : Text}
    (replaces : ∀ finding ∈ overLines visit 0 text.lines,
      ∃ front old rest message new, text = front ++ old ++ rest ∧ old ≠ [] ∧
        finding = .replacing front.length (front.length + old.length) message new) :
    Mends (overLines visit 0 text.lines) text (text.mapLines change) := by
  obtain ⟨script, rfl, leaves, makes⟩ := changes.exists_script 0 text
  rw [← leaves]
  exact .of_script makes replaces

end ChangesLine

end TemplateLint
