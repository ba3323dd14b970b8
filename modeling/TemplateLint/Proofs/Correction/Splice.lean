import Mathlib.Data.List.Pairwise
import TemplateLint.Proofs.Selection.Greedy

/-!
# Corrections as one splice

Corrections that do not conflict are made at the same time: making them from
the end of the text backwards gives the text that is put together from left to
right, out of the parts between the corrections and their replacements.  So
neither the order of the corrections nor that of the linters matters.
-/

namespace TemplateLint

namespace Correction

/-- The text from a position on, put together from left to right: up to each
correction the text is as it was, and behind it comes the replacement. -/
def splice (text : Text) (position : Nat) : List Correction → Text
  | [] => text.drop position
  | correction :: later =>
      (text.take correction.beginPos.toNat).drop position
        ++ correction.replacement
        ++ splice text correction.endPos.toNat later

/-- Corrections by the position at which they begin. -/
def ascending (corrections : List Correction) : List Correction :=
  corrections.mergeSort fun first second => first.beginPos ≤ second.beginPos

/-- Corrections none of which conflicts with another one. -/
def Apart (corrections : List Correction) : Prop :=
  corrections.Pairwise fun first second => first.overlaps second = false

variable {corrections : List Correction}

theorem Apart.perm {other : List Correction} (apart : Apart corrections)
    (permutation : other.Perm corrections) : Apart other :=
  List.Pairwise.perm apart permutation.symm fun separate => by
    rwa [overlaps_comm]

/-- Corrections that begin together are the same. -/
theorem Apart.eq_of_beginPos_eq (apart : Apart corrections)
    {first second : Correction} (inFirst : first ∈ corrections)
    (inSecond : second ∈ corrections)
    (together : first.beginPos = second.beginPos) : first = second := by
  by_contra different
  have symmetric : Std.Symm fun first second : Correction =>
      first.overlaps second = false :=
    ⟨fun first second separate => (overlaps_comm second first).trans separate⟩
  have separate := List.Pairwise.forall apart inFirst inSecond different
  simp [overlaps, together] at separate

theorem ascending_perm (corrections : List Correction) :
    (ascending corrections).Perm corrections :=
  List.mergeSort_perm corrections _

theorem ascending_pairwise (corrections : List Correction) :
    (ascending corrections).Pairwise fun first second =>
      first.beginPos ≤ second.beginPos := by
  have sorted := @List.pairwise_mergeSort _
    (fun first second : Correction => first.beginPos ≤ second.beginPos)
    (by simp only [decide_eq_true_eq]; omega)
    (by simp only [Bool.or_eq_true, decide_eq_true_eq]; omega) corrections
  simpa only [ascending, decide_eq_true_eq] using sorted

/-- There is only one ascending order of corrections that do not conflict. -/
theorem Apart.eq_ascending (apart : Apart corrections) {sorted : List Correction}
    (permutation : sorted.Perm corrections)
    (ascends : sorted.Pairwise fun first second =>
      first.beginPos ≤ second.beginPos) :
    sorted = ascending corrections := by
  apply List.Perm.eq_of_pairwise _ ascends (ascending_pairwise corrections)
    (permutation.trans (ascending_perm corrections).symm)
  intro first second inSorted inAscending noLater noSooner
  exact apart.eq_of_beginPos_eq (permutation.mem_iff.mp inSorted)
    ((ascending_perm corrections).mem_iff.mp inAscending) (by omega)

/-- In ascending order each correction ends before the next one begins. -/
theorem Apart.ascending_pairwise (apart : Apart corrections)
    (forward : ∀ correction ∈ corrections,
      correction.beginPos ≤ correction.endPos) :
    (ascending corrections).Pairwise fun first second =>
      first.beginPos < second.beginPos ∧ first.endPos ≤ second.beginPos := by
  have separate : Apart (ascending corrections) :=
    apart.perm (ascending_perm corrections)
  have sorted := Correction.ascending_pairwise corrections
  apply (sorted.and separate).imp_of_mem
  intro first second _ inSecond both
  have forwardSecond :=
    forward second ((ascending_perm corrections).mem_iff.mp inSecond)
  simp only [overlaps, Bool.or_eq_false_iff, Bool.and_eq_false_iff,
    decide_eq_false_iff_not] at both
  omega

end Correction

namespace Script

open Correction

/-- A script makes its corrections in ascending order. -/
theorem made_ascends (position : Nat) (script : List Piece) :
    (made position script).Pairwise (fun first second =>
        first.beginPos ≤ second.beginPos) ∧
      ∀ correction ∈ made position script, (position : Int) ≤ correction.beginPos := by
  induction script generalizing position with
  | nil => simp [made]
  | cons piece script induction =>
      cases piece with
      | keep c =>
          obtain ⟨ascends, behind⟩ := induction (position + 1)
          refine ⟨ascends, fun correction member => ?_⟩
          have later := behind correction member
          omega
      | swap old new =>
          obtain ⟨ascends, behind⟩ := induction (position + old.length)
          have from_here : ∀ correction ∈ made (position + old.length) script,
              (position : Int) ≤ correction.beginPos := by
            intro correction member
            have later := behind correction member
            omega
          exact ⟨List.pairwise_cons.mpr ⟨from_here, ascends⟩,
            List.forall_mem_cons.mpr ⟨Int.le_refl _, from_here⟩⟩

/-- Corrections that replace some characters do not conflict if one script makes
them. -/
theorem apart_made {position : Nat} {script : List Piece}
    (inhabited : ∀ correction ∈ made position script,
      correction.beginPos < correction.endPos) :
    Apart (made position script) := by
  induction script generalizing position with
  | nil => exact .nil
  | cons piece script induction =>
      cases piece with
      | keep c => exact induction inhabited
      | swap old new =>
          rw [made, List.forall_mem_cons] at inhabited
          refine List.pairwise_cons.mpr ⟨?_, induction inhabited.2⟩
          intro correction member
          have behind := (made_ascends _ script).2 correction member
          have first := inhabited.1
          simp only [overlaps, Bool.or_eq_false_iff, Bool.and_eq_false_iff,
            decide_eq_false_iff_not] at first ⊢
          omega

/-- The text that a script leaves is the splice of its corrections; `kept` has
been gone through since the last one. -/
theorem splice_made (front kept : Text) (script : List Piece) :
    splice (front ++ kept ++ before script) front.length
        (made (front.length + kept.length) script) =
      kept ++ after script := by
  induction script generalizing front kept with
  | nil => simp [made, splice]
  | cons piece script induction =>
      cases piece with
      | keep c =>
          have rest := induction front (kept ++ [c])
          simp only [List.length_append, List.length_singleton,
            List.append_assoc, List.singleton_append] at rest
          simp only [made, before_keep, after_keep, List.append_assoc]
          exact rest
      | swap old new =>
          have rest := induction (front ++ kept ++ old) []
          simp only [List.append_nil, List.length_nil, Nat.add_zero,
            List.nil_append, List.length_append] at rest
          have between : ((front ++ kept ++ (old ++ before script)).take
              (front.length + kept.length)).drop front.length = kept := by
            rw [← List.length_append, List.take_left, List.drop_left]
          simp only [made, splice, before_swap, after_swap, Int.toNat_natCast]
          rw [between, ← List.append_assoc (front ++ kept), rest,
            List.append_assoc]

end Script

namespace Correction

open Script

variable {text : Text} {corrections : List Correction}

theorem applyAll_eq_splice
    (within : ∀ correction ∈ corrections, correction.Within text.length)
    (apart : Apart corrections) :
    applyAll text corrections = splice text 0 (ascending corrections) := by
  obtain ⟨script, goesThrough, leaves, makes, -⟩ :=
    exists_script_applyAll within apart
  have sorted := apart.eq_ascending makes (made_ascends 0 script).1
  have spliced := splice_made [] [] script
  rw [← leaves, ← goesThrough, ← sorted]
  simpa using spliced.symm

end Correction

/-- Candidates that do not conflict are all accepted, and none is dropped. -/
theorem Selection.ofLinters_of_apart {linters : List Linter}
    (apart : Correction.Apart ((candidates linters).map (·.correction))) :
    ofLinters linters = ⟨candidates linters, []⟩ := by
  obtain ⟨verdicts, complete, decides⟩ := exists_ofLinters_decides linters
  rw [← complete, Correction.Apart, List.pairwise_map] at apart
  have all := decides.greedy.forall_accepted apart
  have accepted : (ofLinters linters).accepted = candidates linters := by
    rw [decides.accepted, ← complete, Verdicts.accepted, List.filter_eq_self.mpr all]
  have dropped : (ofLinters linters).dropped = [] := by
    rw [decides.dropped, Verdicts.dropped, List.filter_eq_nil_iff.mpr (by simpa using all)]
    rfl
  exact congrArg₂ Selection.mk accepted dropped

/-- Linters whose candidates do not conflict have all of them made. -/
theorem Selection.corrections_of_apart {linters : List Linter}
    (apart : Correction.Apart ((candidates linters).map (·.correction))) :
    (ofLinters linters).corrections = (candidates linters).map (·.correction) := by
  rw [ofLinters_of_apart apart, corrections]

namespace Correction

/-- Corrections that do not conflict are made as one splice from left to right,
in which each ends before the next begins.  Any order of the corrections and
any order of the linters that propose them gives the same text. -/
theorem applyAll_splices_at_once {text : Text} {corrections : List Correction}
    (within : ∀ correction ∈ corrections, correction.Within text.length)
    (apart : Apart corrections) :
    applyAll text corrections = splice text 0 (ascending corrections) ∧
    (ascending corrections).Perm corrections ∧
    ((ascending corrections).Pairwise fun first second =>
      first.beginPos < second.beginPos ∧ first.endPos ≤ second.beginPos) ∧
    (∀ permuted, permuted.Perm corrections →
      applyAll text permuted = splice text 0 (ascending corrections)) ∧
    ∀ linters reordered : List Linter,
      (Selection.proposals linters).map (·.correction) = corrections →
      reordered.Perm linters →
      (Selection.ofLinters reordered).corrected text =
        splice text 0 (ascending corrections) := by
  have permuting : ∀ permuted, permuted.Perm corrections →
      applyAll text permuted = splice text 0 (ascending corrections) := by
    intro permuted permutation
    rw [applyAll_eq_splice (fun correction member =>
      within correction (permutation.mem_iff.mp member)) (apart.perm permutation)]
    congr 1
    exact apart.eq_ascending ((ascending_perm permuted).trans permutation)
      (ascending_pairwise permuted)
  refine ⟨permuting corrections (.refl _), ascending_perm corrections,
    apart.ascending_pairwise fun correction member => (within correction member).2.1,
    permuting, ?_⟩
  intro linters reordered proposed reordering
  have permutation : ((Selection.candidates reordered).map (·.correction)).Perm
      corrections := by
    rw [← proposed, ← Selection.candidates_eq_proposals]
    exact (reordering.flatMap_right _).map _
  rw [Selection.corrected,
    Selection.corrections_of_apart (apart.perm permutation)]
  exact permuting _ permutation

/-- Two linters propose a replacement behind a deletion, and insertions at both
ends of the text. -/
theorem applyAll_splices_touching_ranges :
    let linter (corrections : List Correction) : Linter :=
      ⟨⟨1, "Any", .common, true, fun _ _ => []⟩, ⟨true, [], .none⟩, "/",
        corrections.map fun correction =>
          ⟨"Any", ⟨0, 0, 1, 0, 1, 0⟩, [], none, .null, some correction⟩⟩
    let first : List Correction := [⟨4, 6, ['F']⟩, ⟨0, 0, ['>']⟩]
    let second : List Correction := [⟨2, 4, []⟩, ⟨6, 6, ['!']⟩]
    (∀ correction ∈ first ++ second, correction.Within 6) ∧
      Apart (first ++ second) ∧
      applyAll "abcdef".toList (second ++ first) = ">abF!".toList ∧
      (Selection.ofLinters [linter second, linter first]).corrected
        "abcdef".toList = ">abF!".toList := by
  intro linter first second
  have within : ∀ correction ∈ first ++ second, correction.Within 6 := by
    simp [first, second, Within]
  have apart : Apart (first ++ second) := by
    simp [first, second, Apart, overlaps]
  obtain ⟨-, -, -, permuting, proposing⟩ :=
    @applyAll_splices_at_once "abcdef".toList _ within apart
  have sorted : [⟨0, 0, ['>']⟩, ⟨2, 4, []⟩, ⟨4, 6, ['F']⟩, ⟨6, 6, ['!']⟩] =
      ascending (first ++ second) :=
    apart.eq_ascending (by decide) (by simp)
  have spliced : splice "abcdef".toList 0 (ascending (first ++ second)) =
      ">abF!".toList := by
    rw [← sorted]
    rfl
  refine ⟨within, apart, ?_, ?_⟩
  · rw [permuting _ List.perm_append_comm, spliced]
  · rw [proposing [linter first, linter second] _ rfl (.swap _ _ _), spliced]

end Correction

end TemplateLint
