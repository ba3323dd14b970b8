import TemplateLint.Linter
import TemplateLint.Proofs.Text.Seam

/-!
# Names of linters

A linter name has no capitals, so it is its own linter name: no class can be
called by the linter name of another one without sharing that name.
-/

namespace TemplateLint

namespace LinterName

theorem not_isCapital_of_isSettled {c : Char}
    (settled : LowerCase.IsSettled c.toNat) : isCapital c = false := by
  refine Bool.eq_false_iff.mpr fun capital => ?_
  simp only [isCapital, Bool.and_eq_true, decide_eq_true_eq, Char.le_def,
    UInt32.le_iff_toNat_le] at capital
  have covered : (⟨65, 90, 1, 32⟩ : LowerCase.Run).covers c.toNat = true :=
    LowerCase.Run.covers_iff.mpr ⟨capital.1, capital.2, Nat.mod_one _⟩
  exact LowerCase.not_isSettled_of_covers (.head _) covered settled

theorem underscore_underscore (name : List Char) :
    underscore (underscore name) = underscore name := by
  have settled : ∀ c ∈ underscore name, LowerCase.IsSettled c.toNat :=
    fun _ => LowerCase.isSettled_of_mem_lower
  have plain : ∀ c ∈ underscore name, isCapital c = false := fun c member =>
    not_isCapital_of_isSettled (settled c member)
  have noAcronym : acronymSeam.fill '_' (underscore name) = underscore name :=
    Seam.fill_eq_self (.head _) '_' plain
  have noHump : humpSeam.fill '_' (underscore name) = underscore name :=
    Seam.fill_eq_self (.head _) '_' plain
  rw [underscore, noAcronym, noHump, LowerCase.lower_eq_self settled]

end LinterName

namespace LinterClass

variable {linterClass other : LinterClass}

/-- A class that answers to the linter name of another one has that name
too. -/
theorem answersTo_linterName_iff :
    other.answersTo linterClass.linterName = true ↔
      other.linterName = linterClass.linterName := by
  simp only [answersTo, Bool.or_eq_true, decide_eq_true_eq]
  constructor
  · rintro (called | same)
    · rw [linterName, ← called, linterName, String.toList_ofList,
        LinterName.underscore_underscore]
    · exact same.symm
  · intro same
    exact .inr same.symm

end LinterClass

end TemplateLint
