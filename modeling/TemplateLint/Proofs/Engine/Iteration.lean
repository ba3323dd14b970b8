import Mathlib.Algebra.BigOperators.Group.Finset.Basic
import Mathlib.Algebra.BigOperators.Intervals
import Mathlib.Logic.Function.Iterate
import Mathlib.Order.Bounds.Defs
import TemplateLint.Engine

/-!
# Correction as bounded iteration

One pass over a file is a function on its text: run the linters, select among
the corrections they propose and make the selected ones.  The passes of the
engine iterate this function until it rests, at most `passLimit` times, and
report the run on the text at which they end.
-/

namespace TemplateLint.Engine

variable (engine : Engine) (workingDirectory : Path) (filename : String)

/-- One run on a text under a file name. -/
def runOn (content : Text) : Run :=
  engine.run workingDirectory ⟨filename, content⟩

/-- What is selected among the corrections that one run proposes. -/
def selectionOn (content : Text) : Selection :=
  Selection.ofLinters (engine.runOn workingDirectory filename content).linters

/-- One correction of a text. -/
def step (content : Text) : Text :=
  (engine.selectionOn workingDirectory filename content).corrected content

/-- A text at which correction has nothing left to do. -/
def Rests (content : Text) : Prop :=
  (engine.runOn workingDirectory filename content).offenses = [] ∨
    (engine.selectionOn workingDirectory filename content).accepted = [] ∨
    engine.step workingDirectory filename content = content

/-- The least number of corrections, up to a limit, after which a text
rests. -/
def IsCount (limit : Nat) (content : Text) (count : Nat) : Prop :=
  IsLeast {count | engine.Rests workingDirectory filename
      ((engine.step workingDirectory filename)^[count] content) ∨
    count = limit} count

/-- None of the runs up to a number of corrections breaks off. -/
def RunsThrough (content : Text) (count : Nat) : Prop :=
  ∀ index ≤ count,
    (engine.runOn workingDirectory filename
      ((engine.step workingDirectory filename)^[index] content)).failure = none

/-- The corrections made by the first passes. -/
def correctionsWithin (content : Text) (count : Nat) : Nat :=
  ∑ index ∈ Finset.range count,
    (engine.selectionOn workingDirectory filename
      ((engine.step workingDirectory filename)^[index] content)).accepted.length

theorem exists_isCount (limit : Nat) (content : Text) :
    ∃ count, engine.IsCount workingDirectory filename limit content count := by
  classical
  have inhabited : ∃ count, engine.Rests workingDirectory filename
      ((engine.step workingDirectory filename)^[count] content) ∨
        count = limit := ⟨limit, .inr rfl⟩
  exact ⟨Nat.find inhabited, Nat.find_spec inhabited,
    fun _ member => Nat.find_min' inhabited member⟩

variable {engine workingDirectory filename}

theorem IsCount.le {limit count : Nat} {content : Text}
    (least : engine.IsCount workingDirectory filename limit content count) :
    count ≤ limit :=
  least.2 (.inr rfl)

theorem IsCount.rests {limit count : Nat} {content : Text}
    (least : engine.IsCount workingDirectory filename limit content count)
    (early : count < limit) :
    engine.Rests workingDirectory filename
      ((engine.step workingDirectory filename)^[count] content) :=
  least.1.resolve_right (Nat.ne_of_lt early)

theorem isCount_zero_of_rests {limit : Nat} {content : Text}
    (rests : engine.Rests workingDirectory filename content) :
    engine.IsCount workingDirectory filename limit content 0 :=
  ⟨.inl rests, fun _ _ => Nat.zero_le _⟩

theorem IsCount.eq_zero {limit count : Nat} {content : Text}
    (least : engine.IsCount workingDirectory filename limit content count)
    (rests : engine.Rests workingDirectory filename content) : count = 0 :=
  Nat.eq_zero_of_le_zero (least.2 (.inl rests))

/-- A text that does not rest is corrected once, and what follows is counted
from the corrected text. -/
theorem IsCount.tail {limit count : Nat} {content : Text}
    (least : engine.IsCount workingDirectory filename (limit + 1) content count)
    (restless : ¬engine.Rests workingDirectory filename content) :
    ∃ later, count = later + 1 ∧
      engine.IsCount workingDirectory filename limit
        (engine.step workingDirectory filename content) later := by
  cases count with
  | zero =>
      rcases least.1 with rests | atLimit
      · exact absurd rests restless
      · omega
  | succ later =>
      refine ⟨later, rfl, ?_, ?_⟩
      · rcases least.1 with rests | atLimit
        · exact .inl rests
        · exact .inr (by omega)
      · intro other member
        have bound : later + 1 ≤ other + 1 := by
          apply least.2
          rcases member with rests | atLimit
          · exact .inl rests
          · exact .inr (by omega)
        omega

theorem RunsThrough.head {content : Text} {count : Nat}
    (quiet : engine.RunsThrough workingDirectory filename content count) :
    (engine.runOn workingDirectory filename content).failure = none :=
  quiet 0 (Nat.zero_le _)

theorem RunsThrough.tail {content : Text} {count : Nat}
    (quiet : engine.RunsThrough workingDirectory filename content (count + 1)) :
    engine.RunsThrough workingDirectory filename
      (engine.step workingDirectory filename content) count :=
  fun index within => quiet (index + 1) (by omega)

theorem correctionsWithin_succ (content : Text) (count : Nat) :
    engine.correctionsWithin workingDirectory filename content (count + 1) =
      (engine.selectionOn workingDirectory filename content).accepted.length +
        engine.correctionsWithin workingDirectory filename
          (engine.step workingDirectory filename content) count := by
  simp only [correctionsWithin, Finset.sum_range_succ', Function.iterate_zero,
    id_eq, Function.iterate_succ_apply]
  exact Nat.add_comm _ _

/-! ## The passes of the engine -/

/-- A pass over a text that rests ends the passes there. -/
theorem correctingPasses_of_rests {limit : Nat} {progress : Progress}
    (rests : engine.Rests workingDirectory filename progress.content)
    (quiet :
      (engine.runOn workingDirectory filename progress.content).failure = none) :
    ∃ dropped notes,
      engine.correctingPasses workingDirectory filename limit progress =
        ⟨{ progress with dropped, notes },
          engine.runOn workingDirectory filename progress.content⟩ := by
  cases limit with
  | zero => exact ⟨progress.dropped, progress.notes, rfl⟩
  | succ limit =>
      let current := engine.runOn workingDirectory filename progress.content
      let selection :=
        engine.selectionOn workingDirectory filename progress.content
      by_cases clean : current.offenses = []
      · refine ⟨progress.dropped, progress.notes, ?_⟩
        have stops : current.failure.isSome ∨ current.offenses.isEmpty := by
          simp [clean]
        rw [correctingPasses]
        exact if_pos stops
      · have still : selection.accepted = [] ∨
            selection.corrected progress.content = progress.content :=
          rests.resolve_left clean
        refine ⟨selection.droppedOffenses,
          progress.notes ++ droppedNotes filename selection, ?_⟩
        have goesOn : ¬(current.failure.isSome ∨ current.offenses.isEmpty) := by
          simp [current, quiet, clean]
        have stops : selection.accepted.isEmpty ∨
            selection.corrected progress.content = progress.content := by
          simpa using still
        rw [correctingPasses]
        exact (if_neg goesOn).trans (if_pos stops)

/-- A pass over a text that does not rest corrects it and goes on. -/
theorem correctingPasses_of_restless (limit : Nat) {progress : Progress}
    (restless : ¬engine.Rests workingDirectory filename progress.content)
    (quiet :
      (engine.runOn workingDirectory filename progress.content).failure = none) :
    ∃ dropped notes,
      engine.correctingPasses workingDirectory filename (limit + 1) progress =
        engine.correctingPasses workingDirectory filename limit
          ⟨engine.step workingDirectory filename progress.content,
            progress.corrected + (engine.selectionOn workingDirectory filename
              progress.content).accepted.length, dropped, notes⟩ := by
  let current := engine.runOn workingDirectory filename progress.content
  let selection :=
    engine.selectionOn workingDirectory filename progress.content
  simp only [Rests, not_or] at restless
  obtain ⟨reported, accepted, moved⟩ := restless
  refine ⟨selection.droppedOffenses,
    progress.notes ++ droppedNotes filename selection
      ++ [.correctionsApplied selection.accepted.length filename], ?_⟩
  have goesOn : ¬(current.failure.isSome ∨ current.offenses.isEmpty) := by
    simp [current, quiet, reported]
  have changes : ¬(selection.accepted.isEmpty ∨
      selection.corrected progress.content = progress.content) := by
    simpa [selection] using ⟨accepted, moved⟩
  rw [correctingPasses]
  exact (if_neg goesOn).trans (if_neg changes)

/-- The passes iterate the correction step up to the first text that rests or
up to their limit, and end with the run on the text they reach. -/
theorem correctingPasses_eq_iterate {limit count : Nat} (progress : Progress)
    (least : engine.IsCount workingDirectory filename limit progress.content
      count)
    (quiet : engine.RunsThrough workingDirectory filename progress.content
      count) :
    ∃ dropped notes,
      engine.correctingPasses workingDirectory filename limit progress =
        ⟨⟨(engine.step workingDirectory filename)^[count] progress.content,
            progress.corrected + engine.correctionsWithin workingDirectory
              filename progress.content count, dropped, notes⟩,
          engine.runOn workingDirectory filename
            ((engine.step workingDirectory filename)^[count]
              progress.content)⟩ := by
  induction limit generalizing progress count with
  | zero =>
      have none_made : count = 0 := Nat.eq_zero_of_le_zero least.le
      subst none_made
      exact ⟨progress.dropped, progress.notes, rfl⟩
  | succ limit induction =>
      by_cases rests : engine.Rests workingDirectory filename progress.content
      · have none_made : count = 0 := least.eq_zero rests
        subst none_made
        exact correctingPasses_of_rests rests quiet.head
      · obtain ⟨later, rfl, leastLater⟩ := least.tail rests
        obtain ⟨dropped, notes, corrected⟩ :=
          correctingPasses_of_restless limit rests quiet.head
        let next : Progress :=
          ⟨engine.step workingDirectory filename progress.content,
            progress.corrected + (engine.selectionOn workingDirectory filename
              progress.content).accepted.length, dropped, notes⟩
        obtain ⟨droppedLater, notesLater, rest⟩ :=
          @induction later next leastLater quiet.tail
        refine ⟨droppedLater, notesLater, ?_⟩
        rw [corrected, rest]
        simp only [next, Function.iterate_succ_apply, correctionsWithin_succ,
          Nat.add_assoc]

/-! ## Results for files -/

/-- The result of a correcting run over a file none of whose runs breaks
off. -/
theorem runFile_of_isCount {count : Nat} {content : Text}
    (least : engine.IsCount workingDirectory filename passLimit content count)
    (quiet : engine.RunsThrough workingDirectory filename content count) :
    ∃ dropped,
      (engine.runFile workingDirectory filename content true).outcome =
        .ok ⟨filename,
          (engine.runOn workingDirectory filename
            ((engine.step workingDirectory filename)^[count] content)).offenses,
          changedFrom content
            ((engine.step workingDirectory filename)^[count] content),
          engine.correctionsWithin workingDirectory filename content count,
          dropped⟩ := by
  let start : Progress := ⟨content, 0, [], []⟩
  obtain ⟨dropped, notes, passes⟩ :=
    correctingPasses_eq_iterate start least quiet
  have last := quiet count le_rfl
  refine ⟨dropped, ?_⟩
  simp [runFile, Engine.passes, start, passes, last]

/-- Without correction a file has the result of one run. -/
theorem runFile_without_correction {content : Text}
    (quiet : (engine.runOn workingDirectory filename content).failure = none) :
    (engine.runFile workingDirectory filename content false).outcome =
      .ok ⟨filename,
        (engine.runOn workingDirectory filename content).offenses, none, 0,
        []⟩ := by
  simp only [runOn] at quiet
  simp [runFile, Engine.passes, correctingPasses, changedFrom, runOn, quiet]

/-- A text that rests is left as it is. -/
theorem runFile_of_rests {content : Text}
    (rests : engine.Rests workingDirectory filename content)
    (quiet : (engine.runOn workingDirectory filename content).failure = none) :
    ∃ dropped,
      (engine.runFile workingDirectory filename content true).outcome =
        .ok ⟨filename,
          (engine.runOn workingDirectory filename content).offenses, none, 0,
          dropped⟩ := by
  have through : engine.RunsThrough workingDirectory filename content 0 := by
    intro index within
    have first : index = 0 := Nat.eq_zero_of_le_zero within
    subst first
    exact quiet
  obtain ⟨dropped, outcome⟩ :=
    runFile_of_isCount (isCount_zero_of_rests rests) through
  exact ⟨dropped, by simpa [changedFrom, correctionsWithin] using outcome⟩

/-- Correcting a file iterates the correction step up to the first text that
rests, at most `passLimit` times, and reports the run on the text at the end.
Where the iteration came to rest, correcting its end again changes nothing. -/
theorem runFile_iterates_step (engine : Engine) (workingDirectory : Path)
    (filename : String) (content : Text) :
    (∃ count,
      engine.IsCount workingDirectory filename passLimit content count ∧
      (engine.RunsThrough workingDirectory filename content count →
        ∃ final result,
          final = (engine.step workingDirectory filename)^[count] content ∧
          (engine.runFile workingDirectory filename content true).outcome =
            .ok result ∧
          result.offenses =
            (engine.runOn workingDirectory filename final).offenses ∧
          result.corrected = engine.correctionsWithin workingDirectory filename
            content count ∧
          result.correctedContent =
            (if final = content then none else some final) ∧
          (count < passLimit →
            ∃ again,
              (engine.runFile workingDirectory filename final true).outcome =
                .ok again ∧
              again.offenses = result.offenses ∧
              again.correctedContent = none ∧
              again.corrected = 0))) ∧
    ((engine.runOn workingDirectory filename content).failure = none →
      ∃ result,
        (engine.runFile workingDirectory filename content false).outcome =
          .ok result ∧
        result.offenses =
          (engine.runOn workingDirectory filename content).offenses ∧
        result.correctedContent = none ∧
        result.corrected = 0) := by
  constructor
  · obtain ⟨count, least⟩ :=
      exists_isCount engine workingDirectory filename passLimit content
    refine ⟨count, least, ?_⟩
    intro quiet
    obtain ⟨dropped, outcome⟩ := runFile_of_isCount least quiet
    refine ⟨_, _, rfl, outcome, rfl, rfl, rfl, ?_⟩
    intro early
    obtain ⟨droppedAgain, again⟩ :=
      runFile_of_rests (least.rests early) (quiet count le_rfl)
    exact ⟨_, again, rfl, rfl, rfl⟩
  · intro quiet
    exact ⟨_, runFile_without_correction quiet, rfl, rfl, rfl⟩

end TemplateLint.Engine
