import Mathlib.Data.List.Forall2
import TemplateLint.Text.Seam
import TemplateLint.Proofs.Text.Marking

/-!
# Filled seams

The sides of a seam are found wherever a text begins with them.  If the ends
of a seam can be told character by character, filling the seams of a text
marks these ends: what is taken from the text for one seam hides no other one.
-/

namespace TemplateLint.Seam

open Text

variable {seam : Seam} {text left right : Text}

/-! ## Sides -/

/-- Two texts that can stand on the sides of a seam. -/
structure Fits (seam : Seam) (left right : Text) : Prop where
  notEmpty : left ≠ []
  inClass : ∀ c ∈ left, seam.left c = true
  single : seam.repeats = false → left.length = 1
  inRow : List.Forall₂ (fun test c => test c = true) seam.right right

theorem row?_eq_some_iff {tests : List (Char → Bool)} {row : Text} :
    row? tests text = some row ↔
      List.Forall₂ (fun test c => test c = true) tests row ∧ row <+: text := by
  fun_induction row? tests text generalizing row with
  | case1 text =>
      rw [Option.some.injEq, List.forall₂_nil_left_iff]
      constructor
      · rintro rfl
        exact ⟨rfl, List.nil_prefix⟩
      · exact fun empty => empty.1.symm
  | case2 test tests =>
      refine iff_of_false (by simp) ?_
      rintro ⟨passes, isPrefix⟩
      rw [List.prefix_nil.mp isPrefix] at passes
      cases passes
  | case3 test tests c rest passes induction =>
      rw [Option.map_eq_some_iff]
      constructor
      · rintro ⟨later, found, rfl⟩
        obtain ⟨inRow, isPrefix⟩ := induction.mp found
        exact ⟨.cons passes inRow, (List.prefix_cons_inj c).mpr isPrefix⟩
      · rintro ⟨inRow, isPrefix⟩
        cases inRow with
        | cons _ later =>
            obtain ⟨rfl, shorter⟩ := List.cons_prefix_cons.mp isPrefix
            exact ⟨_, induction.mpr ⟨later, shorter⟩, rfl⟩
  | case4 test tests c rest fails =>
      refine iff_of_false (by simp) ?_
      rintro ⟨inRow, isPrefix⟩
      cases inRow with
      | cons passes _ =>
          obtain ⟨rfl, -⟩ := List.cons_prefix_cons.mp isPrefix
          exact fails passes

theorem fits_of_sides? (found : seam.sides? text = some (left, right)) :
    seam.Fits left right ∧ left ++ right <+: text := by
  induction text generalizing left with
  | nil => simp [sides?] at found
  | cons c rest induction =>
      rw [sides?] at found
      split at found
      next passes =>
        split at found
        next longer laterRight further =>
          obtain ⟨rfl, rfl⟩ : c :: longer = left ∧ laterRight = right := by
            simpa using found
          split at further
          next repeats =>
            obtain ⟨fits, isPrefix⟩ := induction further
            refine ⟨⟨List.cons_ne_nil _ _, ?_, ?_, fits.inRow⟩,
              (List.prefix_cons_inj c).mpr isPrefix⟩
            · exact List.forall_mem_cons.mpr ⟨passes, fits.inClass⟩
            · simp [repeats]
          next => simp at further
        next =>
          obtain ⟨row, behind, same⟩ := Option.map_eq_some_iff.mp found
          obtain ⟨rfl, rfl⟩ : [c] = left ∧ row = right := by simpa using same
          obtain ⟨inRow, isPrefix⟩ := row?_eq_some_iff.mp behind
          exact ⟨⟨List.cons_ne_nil _ _, by simpa using passes, fun _ => rfl,
            inRow⟩, (List.prefix_cons_inj c).mpr isPrefix⟩
      next => simp at found

/-- A run that is read too far is given back. -/
theorem isSome_sides? (fits : seam.Fits left right) (rest : Text) :
    (seam.sides? (left ++ right ++ rest)).isSome = true := by
  induction left with
  | nil => exact absurd rfl fits.notEmpty
  | cons c more induction =>
      have passes := fits.inClass c (.head _)
      rw [List.cons_append, List.cons_append, sides?, if_pos passes]
      split
      next => rfl
      next nothing =>
        cases more with
        | nil =>
            have behind : row? seam.right (right ++ rest) = some right :=
              row?_eq_some_iff.mpr ⟨fits.inRow, List.prefix_append _ _⟩
            rw [List.nil_append, behind]
            rfl
        | cons next later =>
            have repeats : seam.repeats = true := by
              refine (Bool.eq_false_or_eq_true _).resolve_right fun once => ?_
              simpa using fits.single once
            have further := induction ⟨List.cons_ne_nil _ _,
              fun c member => fits.inClass c (.tail _ member),
              by simp [repeats], fits.inRow⟩
            rw [if_pos repeats] at nothing
            rw [nothing] at further
            contradiction

/-! ## Filled texts -/

/-- A test that tells the ends of a seam: a text that passes it begins with
the sides of the seam, and of the characters on both sides only the last one
on the left passes it. -/
structure HasEnds (seam : Seam) (ends : Text → Bool) : Prop where
  begins : ∀ text, ends text = true →
    ∃ left right rest, text = left ++ right ++ rest ∧ seam.Fits left right
  between : ∀ filling left right rest, seam.Fits left right →
    marked ends filling (left ++ right ++ rest) =
      left ++ filling :: right ++ marked ends filling rest

variable {ends : Text → Bool} {filling c : Char} {rest : Text}

theorem HasEnds.not_ends_of_sides? (hasEnds : seam.HasEnds ends)
    (nothing : seam.sides? text = none) : ends text = false := by
  refine Bool.eq_false_iff.mpr fun ending => ?_
  obtain ⟨left, right, behind, rfl, fits⟩ := hasEnds.begins _ ending
  have isFound := isSome_sides? fits behind
  rw [nothing] at isFound
  contradiction

theorem HasEnds.marked_of_sides? (hasEnds : seam.HasEnds ends)
    (found : seam.sides? (c :: rest) = some (left, right)) :
    marked ends filling (c :: rest) = left ++ filling :: right ++
      marked ends filling (rest.drop (left.length + right.length - 1)) := by
  obtain ⟨fits, behind, whole⟩ := fits_of_sides? found
  have length_pos := List.length_pos_iff.mpr fits.notEmpty
  have skips : rest.drop (left.length + right.length - 1) = behind := by
    have sides : (c :: rest).drop (left ++ right).length = behind := by
      rw [← whole, List.drop_left]
    rw [← sides, List.length_append, List.drop_cons (by omega)]
  rw [skips, ← whole, hasEnds.between _ _ _ _ fits]

theorem fill_eq_marked (hasEnds : seam.HasEnds ends) (filling : Char)
    (text : Text) : seam.fill filling text = marked ends filling text := by
  -- What is left to fill is the text behind the sides of the last seam.
  suffices anywhere : ∀ skipped, seam.fillFrom filling skipped text =
      marked ends filling (text.drop skipped) from anywhere 0
  induction text with
  | nil =>
      intro skipped
      rw [List.drop_nil]
      rfl
  | cons c rest induction =>
      intro skipped
      cases skipped with
      | succ more => exact induction more
      | zero =>
          rw [fillFrom, List.drop_zero]
          cases found : seam.sides? (c :: rest) with
          | some sides =>
              rw [hasEnds.marked_of_sides? found, ← induction]
          | none =>
              rw [marked_of_not_ends (hasEnds.not_ends_of_sides? found)]
              exact congrArg (c :: ·) (induction 0)

theorem exists_mem_of_asked {tests : List (Char → Bool)} {row : Text}
    {test : Char → Bool}
    (inRow : List.Forall₂ (fun test c => test c = true) tests row)
    (asked : test ∈ tests) : ∃ c ∈ row, test c = true := by
  induction inRow with
  | nil => exact absurd asked List.not_mem_nil
  | @cons first c tests row passes _ induction =>
      rcases List.mem_cons.mp asked with rfl | later
      · exact ⟨c, .head _, passes⟩
      · obtain ⟨found, member, passesToo⟩ := induction later
        exact ⟨found, .tail _ member, passesToo⟩

/-- A text without characters of a class that the right side asks for has no
seam. -/
theorem fill_eq_self {test : Char → Bool} (asked : test ∈ seam.right)
    (filling : Char) (plain : ∀ c ∈ text, test c = false) :
    seam.fill filling text = text := by
  induction text with
  | nil => rfl
  | cons c rest induction =>
      have nothing : seam.sides? (c :: rest) = none := by
        refine Option.eq_none_iff_forall_ne_some.mpr fun sides found => ?_
        obtain ⟨fits, isPrefix⟩ := fits_of_sides? found
        obtain ⟨asking, member, passes⟩ :=
          exists_mem_of_asked fits.inRow asked
        have inText := isPrefix.subset (List.mem_append_right _ member)
        rw [plain asking inText] at passes
        contradiction
      rw [fill, fillFrom, nothing]
      exact congrArg (c :: ·)
        (induction fun c member => plain c (.tail _ member))

end TemplateLint.Seam
