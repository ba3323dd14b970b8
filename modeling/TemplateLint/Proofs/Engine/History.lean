import TemplateLint.Engine.Bench
import TemplateLint.Proofs.Engine.Builtin

/-!
# Calls on a used engine

The linters that a call leaves behind, finished or broken off, are not looked
at by the next one: after any history a bench answers like a fresh one.  A run
puts together what its linters report one by one, and linters that exclude the
file have no part in any call.
-/

namespace TemplateLint

namespace Engine

variable {engine : Engine} {workingDirectory : Path} {source : Source}

/-- A linter of an engine after it alone has looked at a source, with the fault
if there was one. -/
def alone (engine : Engine) (source : Source)
    (linter : LinterClass × LinterConfig) : Linter × Option Fault :=
  (Linter.fresh linter.1 linter.2 engine.basePath).run source

/-- The first of some linters that breaks off on its own, with its error. -/
def BreaksFirst (engine : Engine) (source : Source)
    (linters : List (LinterClass × LinterConfig)) (error : ExecutionError) :
    Prop :=
  ∃ earlier broken later fault,
    linters = earlier ++ broken :: later ∧
      (∀ linter ∈ earlier, (engine.alone source linter).2 = none) ∧
      (engine.alone source broken).2 = some fault ∧
      error = ⟨broken.1.name, source.filename, fault⟩

theorem quiet_or_breaksFirst (engine : Engine) (source : Source)
    (linters : List (LinterClass × LinterConfig)) :
    (∀ linter ∈ linters, (engine.alone source linter).2 = none) ∨
      ∃ error, engine.BreaksFirst source linters error := by
  induction linters with
  | nil =>
      left
      intro linter member
      cases member
  | cons linter linters induction =>
      cases here : (engine.alone source linter).2 with
      | some fault =>
          exact .inr ⟨_, [], linter, linters, fault, rfl, by simp, here, rfl⟩
      | none =>
          rcases induction with quiet |
            ⟨error, earlier, broken, later, fault, rfl, quiet, breaks, named⟩
          · exact .inl (List.forall_mem_cons.mpr ⟨here, quiet⟩)
          · exact .inr ⟨error, linter :: earlier, broken, later, fault, rfl,
              List.forall_mem_cons.mpr ⟨here, quiet⟩, breaks, named⟩

theorem run_of_quiet
    (quiet : ∀ linter ∈ engine.applicable workingDirectory source.filename,
      (engine.alone source linter).2 = none) :
    engine.run workingDirectory source =
      ⟨(engine.applicable workingDirectory source.filename).map
        fun linter => (engine.alone source linter).1, none⟩ := by
  rw [run, runLinters_of_quiet, List.map_map]
  · rfl
  · intro linter member
    obtain ⟨looking, applies, rfl⟩ := List.mem_map.mp member
    exact quiet looking applies

theorem failure_of_breaksFirst {error : ExecutionError}
    (breaks : engine.BreaksFirst source
      (engine.applicable workingDirectory source.filename) error) :
    (engine.run workingDirectory source).failure = some error := by
  obtain ⟨earlier, broken, later, fault, applies, quiet, breaks, rfl⟩ := breaks
  rw [run, applies, List.map_append, List.map_cons]
  apply failure_of_broken _ breaks
  intro linter member
  obtain ⟨looking, before, rfl⟩ := List.mem_map.mp member
  exact quiet looking before

theorem run_failure_eq_none_iff :
    (engine.run workingDirectory source).failure = none ↔
      ∀ linter ∈ engine.applicable workingDirectory source.filename,
        (engine.alone source linter).2 = none := by
  constructor
  · intro finished
    rcases engine.quiet_or_breaksFirst source
        (engine.applicable workingDirectory source.filename) with
      quiet | ⟨error, breaks⟩
    · exact quiet
    · rw [failure_of_breaksFirst breaks] at finished
      contradiction
  · intro quiet
    rw [run_of_quiet quiet]

theorem run_failure_eq_some_iff {error : ExecutionError} :
    (engine.run workingDirectory source).failure = some error ↔
      engine.BreaksFirst source
        (engine.applicable workingDirectory source.filename) error := by
  constructor
  · intro failed
    rcases engine.quiet_or_breaksFirst source
        (engine.applicable workingDirectory source.filename) with
      quiet | ⟨first, breaks⟩
    · rw [run_of_quiet quiet] at failed
      contradiction
    · rw [failure_of_breaksFirst breaks, Option.some.injEq] at failed
      rwa [← failed]
  · exact failure_of_breaksFirst

/-! ## Linters that exclude a file -/

/-- The engine without the linters that exclude a file. -/
def lookingAt (engine : Engine) (workingDirectory : Path)
    (filename : String) : Engine :=
  { engine with linters := engine.applicable workingDirectory filename }

theorem applicable_lookingAt (engine : Engine) (workingDirectory : Path)
    (filename : String) :
    (engine.lookingAt workingDirectory filename).applicable workingDirectory
      filename = engine.applicable workingDirectory filename := by
  rw [applicable, lookingAt, applicable, List.filter_filter]
  congr 1
  funext linter
  exact Bool.and_self _

theorem run_lookingAt (engine : Engine) (workingDirectory : Path)
    (source : Source) :
    (engine.lookingAt workingDirectory source.filename).run workingDirectory
      source = engine.run workingDirectory source := by
  rw [run, run, applicable_lookingAt]
  rfl

theorem correctingPasses_lookingAt (engine : Engine) (workingDirectory : Path)
    (filename : String) (limit : Nat) (progress : Progress) :
    (engine.lookingAt workingDirectory filename).correctingPasses
        workingDirectory filename limit progress =
      engine.correctingPasses workingDirectory filename limit progress := by
  induction limit generalizing progress with
  | zero =>
      have same := engine.run_lookingAt workingDirectory
        ⟨filename, progress.content⟩
      rw [correctingPasses, correctingPasses, same]
  | succ limit induction =>
      have same := engine.run_lookingAt workingDirectory
        ⟨filename, progress.content⟩
      rw [correctingPasses, correctingPasses, same]
      simp only [induction]

theorem runFile_lookingAt (engine : Engine) (workingDirectory : Path)
    (filename : String) (content : Text) (autocorrect : Bool) :
    (engine.lookingAt workingDirectory filename).runFile workingDirectory
        filename content autocorrect =
      engine.runFile workingDirectory filename content autocorrect := by
  simp only [runFile, passes, correctingPasses_lookingAt]

end Engine

/-- The source that a call is about. -/
def Call.source : Call → Source
  | .run source => source
  | .runFile source _ => source
  | .correct source => source

namespace Bench

/-- The bench after calls one after another, of which any may have broken
off. -/
def after (bench : Bench) (history : List Call) : Bench :=
  history.foldl (fun used next => (used.call next).1) bench

variable {bench : Bench}

/-- A call keeps the engine and the directory it works in. -/
theorem call_keeps (bench : Bench) (next : Call) :
    (bench.call next).1.engine = bench.engine ∧
      (bench.call next).1.workingDirectory = bench.workingDirectory := by
  cases next <;> exact ⟨rfl, rfl⟩

/-- No call looks at the linters that are on the bench before it. -/
theorem call_eq_of_same {other : Bench} (sameEngine : bench.engine = other.engine)
    (sameDirectory : bench.workingDirectory = other.workingDirectory)
    (next : Call) : bench.call next = other.call next := by
  obtain ⟨engine, workingDirectory, linters⟩ := bench
  obtain ⟨_, _, others⟩ := other
  cases sameEngine
  cases sameDirectory
  cases next <;> rfl

theorem after_keeps (bench : Bench) (history : List Call) :
    (bench.after history).engine = bench.engine ∧
      (bench.after history).workingDirectory = bench.workingDirectory := by
  induction history generalizing bench with
  | nil => exact ⟨rfl, rfl⟩
  | cons next history induction =>
      have kept := bench.call_keeps next
      have keptBehind := induction (bench.call next).1
      exact ⟨keptBehind.1.trans kept.1, keptBehind.2.trans kept.2⟩

theorem call_run_eq_ok_iff {source : Source} {reply : Reply} :
    (bench.call (.run source)).2 = .ok reply ↔
      (bench.engine.run bench.workingDirectory source).failure = none ∧
        reply = .offenses
          (bench.engine.run bench.workingDirectory source).offenses := by
  simp only [call, run]
  cases (bench.engine.run bench.workingDirectory source).failure with
  | none => simp [Except.map, eq_comm]
  | some error => simp [Except.map]

theorem call_run_eq_error_iff {source : Source} {error : ExecutionError} :
    (bench.call (.run source)).2 = .error error ↔
      (bench.engine.run bench.workingDirectory source).failure = some error := by
  simp only [call, run]
  cases (bench.engine.run bench.workingDirectory source).failure with
  | none => simp [Except.map]
  | some first => simp [Except.map]

theorem call_lookingAt (engine : Engine) (workingDirectory : Path)
    (next : Call) :
    ((fresh (engine.lookingAt workingDirectory next.source.filename)
        workingDirectory).call next).2 =
      ((fresh engine workingDirectory).call next).2 := by
  cases next with
  | run source =>
      simp only [call, run, fresh, Call.source, Engine.run_lookingAt]
  | runFile source autocorrect =>
      simp only [call, fresh, Call.source, Engine.runFile_lookingAt]
  | correct source =>
      simp only [call, run, fresh, Call.source, Engine.run_lookingAt]

/-- After any history of calls, broken off or not, the next call leaves behind
and answers what it does on a fresh bench.  One run has an answer exactly if no
linter that looks at the file breaks off on its own; the answer is then what
these linters report on their own, one after another in the order of the engine.
Otherwise the error names the first that breaks off.  Linters that exclude the
file make no difference to any call, whether they break off or not. -/
theorem call_after_history (engine : Engine) (workingDirectory : Path)
    (history : List Call) :
    (∀ next, ((fresh engine workingDirectory).after history).call next =
      (fresh engine workingDirectory).call next) ∧
    (∀ source reply,
      (((fresh engine workingDirectory).after history).call
          (.run source)).2 = .ok reply ↔
        (∀ linter ∈ engine.applicable workingDirectory source.filename,
          (engine.alone source linter).2 = none) ∧
        reply = .offenses
          ((engine.applicable workingDirectory source.filename).flatMap
            fun linter => (engine.alone source linter).1.offenses)) ∧
    (∀ source error,
      (((fresh engine workingDirectory).after history).call
          (.run source)).2 = .error error ↔
        engine.BreaksFirst source
          (engine.applicable workingDirectory source.filename) error) ∧
    ∀ next, (((fresh engine workingDirectory).after history).call next).2 =
      ((fresh (engine.lookingAt workingDirectory next.source.filename)
        workingDirectory).call next).2 := by
  have same (next : Call) :
      ((fresh engine workingDirectory).after history).call next =
        (fresh engine workingDirectory).call next := by
    have kept := (fresh engine workingDirectory).after_keeps history
    exact call_eq_of_same kept.1 kept.2 next
  refine ⟨same, ?_, ?_, ?_⟩
  · intro source reply
    rw [same, call_run_eq_ok_iff]
    change (engine.run workingDirectory source).failure = none ∧
      reply = .offenses (engine.run workingDirectory source).offenses ↔ _
    rw [Engine.run_failure_eq_none_iff]
    apply and_congr_right
    intro quiet
    rw [Engine.run_of_quiet quiet, Run.offenses, List.flatMap_map]
  · intro source error
    rw [same, call_run_eq_error_iff]
    exact Engine.run_failure_eq_some_iff
  · intro next
    rw [same, call_lookingAt]

end Bench

end TemplateLint
