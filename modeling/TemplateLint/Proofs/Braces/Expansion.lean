import Mathlib.Data.List.TakeWhile
import TemplateLint.Braces
import TemplateLint.Proofs.Text.Parts

/-!
# Steps of the expansion

A step of the expansion takes a group out of the text, so that the choices of
the group open fewer braces than the text does.  The number of opening braces
is therefore enough for every run of the expansion to come to its end.
-/

namespace TemplateLint.Braces

/-- A text has no braces. -/
def IsPlain (text : Text) : Prop := ∀ c ∈ text, isBrace c = false

theorem isPlain_nil : IsPlain [] := List.forall_mem_nil _

theorem isPlain_cons {c : Char} {rest : Text} :
    IsPlain (c :: rest) ↔ isBrace c = false ∧ IsPlain rest :=
  List.forall_mem_cons

theorem isPlain_append {front rest : Text} :
    IsPlain (front ++ rest) ↔ IsPlain front ∧ IsPlain rest :=
  List.forall_mem_append

/-! ## Groups -/

theorem inside?_append {front : Text} (plain : IsPlain front) (rest : Text) :
    inside? (front ++ rest) =
      (inside? rest).map fun found => (front ++ found.1, found.2) := by
  have kept : ∀ c ∈ front, (!isBrace c) = true := by
    intro c member
    rw [plain c member]
    rfl
  rw [inside?, inside?, List.dropWhile_append_of_pos kept,
    List.takeWhile_append_of_pos kept]
  split <;> rfl

theorem inside?_close (after : Text) :
    inside? ('\x7d' :: after) = some ([], after) := rfl

theorem inside?_open (rest : Text) : inside? ('\x7b' :: rest) = none := rfl

theorem eq_append_of_inside? {text inside after : Text}
    (found : inside? text = some (inside, after)) :
    text = inside ++ '\x7d' :: after ∧ IsPlain inside := by
  rw [inside?] at found
  split at found
  next closed =>
    cases found
    constructor
    · rw [← closed, List.takeWhile_append_dropWhile]
    · intro c member
      simpa using List.mem_takeWhile_imp member
  next => cases found

theorem eq_append_of_group? {text : Text} {group : Group}
    (found : group? text = some group) :
    text = group.before ++ '\x7b' :: group.inside ++ '\x7d' :: group.after ∧
      IsPlain group.inside := by
  induction text generalizing group with
  | nil => cases found
  | cons c rest induction =>
      rw [group?] at found
      split at found
      next inside after here =>
        cases found
        split at here
        next isOpening =>
          obtain ⟨rfl, plain⟩ := eq_append_of_inside? here
          exact ⟨by rw [isOpening]; rfl, plain⟩
        next => cases here
      next =>
        obtain ⟨later, foundLater, rfl⟩ := Option.map_eq_some_iff.mp found
        obtain ⟨same, plain⟩ := induction foundLater
        exact ⟨by rw [same]; rfl, plain⟩

/-- A choice opens fewer braces than the text with the group. -/
theorem count_lt_of_mem_choices {text choice : Text} {group : Group}
    (found : group? text = some group) (member : choice ∈ group.choices) :
    choice.count '\x7b' < text.count '\x7b' := by
  obtain ⟨same, plain⟩ := eq_append_of_group? found
  obtain ⟨part, inParts, rfl⟩ := List.mem_map.mp member
  have none : part.count '\x7b' = 0 := by
    apply List.count_eq_zero_of_not_mem
    intro opening
    have notBrace := plain _ (Text.mem_of_mem_parts inParts opening)
    exact absurd notBrace (by decide)
  have closing : List.count '\x7b' ('\x7d' :: group.after) =
      group.after.count '\x7b' := List.count_cons_of_ne (by decide)
  rw [same]
  simp only [List.count_append, List.count_cons_self, closing, none]
  omega

/-! ## Runs -/

/-- A run of the expansion, however long it is, ends with the words. -/
inductive Expands : Text → List Text → Prop where
  | done {text : Text} (noGroup : group? text = none) : Expands text [text]
  | step {text : Text} {group : Group} {words : Text → List Text}
      (found : group? text = some group)
      (runs : ∀ choice ∈ group.choices, Expands choice (words choice)) :
      Expands text (group.choices.flatMap words)

theorem expands_expandSteps {steps : Nat} {text : Text}
    (enough : text.count '\x7b' ≤ steps) :
    Expands text (expandSteps steps text) := by
  induction steps generalizing text with
  | zero =>
      apply Expands.done
      cases found : group? text with
      | none => rfl
      | some group =>
          rw [(eq_append_of_group? found).1] at enough
          simp at enough
  | succ steps induction =>
      rw [expandSteps]
      cases found : group? text with
      | none => exact .done found
      | some group =>
          apply Expands.step found
          intro choice member
          have fewer := count_lt_of_mem_choices found member
          exact induction (by omega)

/-- The expansion of any text comes to an end. -/
theorem expands_expand (text : Text) : Expands text (expand text) :=
  expands_expandSteps (Nat.le_refl _)

/-! ## Choices -/

/-- The texts that one step leaves, if the text has a group to take. -/
def choices? (text : Text) : Option (List Text) :=
  (group? text).map Group.choices

theorem choices?_cons_of_none {c : Char} {rest : Text}
    (notHere : (if c = '\x7b' then inside? rest else none) = none) :
    choices? (c :: rest) = (choices? rest).map (List.map (c :: ·)) := by
  rw [choices?, choices?, group?, notHere]
  cases group? rest with
  | none => rfl
  | some group => simp [Group.choices]

theorem choices?_append {front : Text} (plain : IsPlain front) (rest : Text) :
    choices? (front ++ rest) = (choices? rest).map (List.map (front ++ ·)) := by
  induction front with
  | nil => simp
  | cons c front induction =>
      obtain ⟨notBrace, plainRest⟩ := isPlain_cons.mp plain
      have notOpening : c ≠ '\x7b' := by
        rintro rfl
        exact absurd notBrace (by decide)
      rw [List.cons_append, choices?_cons_of_none (if_neg notOpening),
        induction plainRest, Option.map_map]
      congr 1
      funext choices
      simp

theorem choices?_of_isPlain {text : Text} (plain : IsPlain text) :
    choices? text = none := by
  have same := choices?_append plain []
  rwa [List.append_nil] at same

theorem choices?_group {inside : Text} (plain : IsPlain inside) (after : Text) :
    choices? ('\x7b' :: (inside ++ '\x7d' :: after)) =
      some ((inside.parts ',').map (· ++ after)) := by
  rw [choices?, group?, if_pos rfl, inside?_append plain, inside?_close]
  simp [Group.choices]

end TemplateLint.Braces
