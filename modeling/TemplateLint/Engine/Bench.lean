import TemplateLint.Engine

/-!
# Engines in use

A bench is an engine with the linters that its last call has left behind.
Calls follow one another; each takes the bench of the one before.
-/

namespace TemplateLint

structure Bench where
  engine : Engine
  workingDirectory : Path
  linters : List Linter

/-- What can be asked of an engine. -/
inductive Call where
  | run (source : Source)
  | runFile (source : Source) (autocorrect : Bool)
  | correct (source : Source)

/-- What an engine answers. -/
inductive Reply where
  | offenses (offenses : List Offense)
  | file (result : FileResult)
  | correction (selection : Selection) (content : Text)

namespace Bench

/-- A bench on which nothing was done. -/
def fresh (engine : Engine) (workingDirectory : Path) : Bench :=
  ⟨engine, workingDirectory, []⟩

/-- One run, whose linters stay on the bench. -/
def run (bench : Bench) (source : Source) :
    Bench × Except ExecutionError (List Offense) :=
  let result := bench.engine.run bench.workingDirectory source
  ({ bench with linters := result.linters },
    match result.failure with
    | some error => .error error
    | none => .ok result.offenses)

/-- The bench after a call, with the answer. -/
def call (bench : Bench) : Call → Bench × Except ExecutionError Reply
  | .run source =>
      let (after, outcome) := bench.run source
      (after, outcome.map .offenses)
  | .runFile source autocorrect =>
      let result := bench.engine.runFile bench.workingDirectory source.filename
        source.content autocorrect
      ({ bench with linters := result.linters }, result.outcome.map .file)
  | .correct source =>
      let (after, outcome) := bench.run source
      (after, outcome.map fun _ =>
        let selection := Selection.ofLinters after.linters
        .correction selection (selection.corrected source.content))

end Bench

end TemplateLint
