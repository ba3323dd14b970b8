import TemplateLint.Config
import TemplateLint.Exclusion
import TemplateLint.Selection

/-!
# The engine

An engine is an ordered list of linter classes with their resolved options.
It runs the linters that do not exclude a file, and corrects a file by
repeated passes until nothing changes.  Each run starts from linters that have
recorded nothing.
-/

namespace TemplateLint

/-- What a run says about its progress. -/
inductive Note where
  | configLoaded (path : String)
  | linterLoaded (name file : String)
  | filesDiscovered (count : Nat)
  | correctionDropped (linterName : String) (beginPos endPos : Int)
      (filename : String)
  | correctionsApplied (count : Nat) (filename : String)
  | correctionsWritten (count : Nat) (filename : String)

/-- A linter broke off while a file was linted. -/
structure ExecutionError where
  linterName : String
  filename : String
  fault : Fault
  deriving DecidableEq

def ExecutionError.message (error : ExecutionError) : Text :=
  error.linterName.toList ++ " raised " ++ error.fault.title
    ++ " while linting " ++ error.filename.toList ++ ": "
    ++ error.fault.message

/-- The linters of a run, and the error that ended it early.  The linters
behind the one that broke off have recorded nothing. -/
structure Run where
  linters : List Linter
  failure : Option ExecutionError

/-- All offenses of a run, linter by linter. -/
def Run.offenses (run : Run) : List Offense := run.linters.flatMap (·.offenses)

/-- The outcome of linting and perhaps correcting one file. -/
structure FileResult where
  filename : String
  offenses : List Offense
  correctedContent : Option Text
  corrected : Nat
  dropped : List Offense

def FileResult.modified (result : FileResult) : Bool :=
  result.correctedContent.isSome

structure Engine where
  linters : List (LinterClass × LinterConfig)
  basePath : String

namespace Engine

/-- Resolves the options of every class before any file is read. -/
def build (config : RunnerConfig) (classes : List LinterClass)
    (basePath : String) : Except ConfigError Engine := do
  let linters ← classes.mapM fun linterClass => do
    let options ← config.forLinter linterClass.name
    return (linterClass, options)
  return ⟨linters, basePath⟩

def autocorrectableCount (engine : Engine) : Nat :=
  (engine.linters.filter (·.1.correctable)).length

/-- The name of a file from the root; double dots stay. -/
def absoluteName (workingDirectory : Path) (filename : String) : String :=
  (workingDirectory.under (Path.ofString filename)).toString

/-- Whether the options of a linter exclude a file. -/
def skips (engine : Engine) (workingDirectory : Path) (filename : String)
    (options : LinterConfig) : Bool :=
  isExcluded workingDirectory engine.basePath options.exclude
    (absoluteName workingDirectory filename)

/-- The linters that look at a file. -/
def applicable (engine : Engine) (workingDirectory : Path) (filename : String) :
    List (LinterClass × LinterConfig) :=
  engine.linters.filter fun linter =>
    !engine.skips workingDirectory filename linter.2

/-- Runs linters one after another up to the first that breaks off. -/
def runLinters (source : Source) : List Linter → Run
  | [] => ⟨[], none⟩
  | linter :: later =>
      match linter.run source with
      | (finished, none) =>
          let rest := runLinters source later
          ⟨finished :: rest.linters, rest.failure⟩
      | (broken, some fault) =>
          ⟨broken :: later,
            some ⟨linter.linterClass.name, source.filename, fault⟩⟩

/-- One run of all linters that look at a source. -/
def run (engine : Engine) (workingDirectory : Path) (source : Source) : Run :=
  runLinters source
    ((engine.applicable workingDirectory source.filename).map fun linter =>
      Linter.fresh linter.1 linter.2 engine.basePath)

/-- Passes over one file: the text so far, the corrections made, the offenses
dropped by the last selection, and the notes. -/
structure Progress where
  content : Text
  corrected : Nat
  dropped : List Offense
  notes : List Note

/-- The end of the passes, with the last run. -/
structure Passes where
  progress : Progress
  last : Run

/-- The notes of a selection, one for each dropped candidate. -/
def droppedNotes (filename : String) (selection : Selection) : List Note :=
  selection.dropped.map fun candidate =>
    .correctionDropped candidate.offense.linterName
      candidate.correction.beginPos candidate.correction.endPos filename

/-- The number of passes after which a file is left as it is. -/
def passLimit : Nat := 7

/-- Runs and corrects until a run breaks off or has no offenses, nothing is
accepted or the text stays the same.  When the passes are used up, one more
run tells what is left. -/
def correctingPasses (engine : Engine) (workingDirectory : Path)
    (filename : String) : Nat → Progress → Passes
  | 0, progress =>
      ⟨progress, engine.run workingDirectory ⟨filename, progress.content⟩⟩
  | passes + 1, progress =>
      let current := engine.run workingDirectory ⟨filename, progress.content⟩
      if current.failure.isSome ∨ current.offenses.isEmpty then
        ⟨progress, current⟩
      else
        let selection := Selection.ofLinters current.linters
        let content := selection.corrected progress.content
        let seen :=
          { progress with
            dropped := selection.droppedOffenses
            notes := progress.notes ++ droppedNotes filename selection }
        if selection.accepted.isEmpty ∨ content = progress.content then
          ⟨seen, current⟩
        else
          engine.correctingPasses workingDirectory filename passes
            { seen with
              content
              corrected := seen.corrected + selection.accepted.length
              notes := seen.notes
                ++ [.correctionsApplied selection.accepted.length filename] }

/-- All passes over a file; without correction there is a single run. -/
def passes (engine : Engine) (workingDirectory : Path) (filename : String)
    (content : Text) (autocorrect : Bool) : Passes :=
  engine.correctingPasses workingDirectory filename
    (if autocorrect then passLimit else 0) ⟨content, 0, [], []⟩

/-- The result of linting a file, with the notes made on the way and the
linters of the last run. -/
structure FileRun where
  notes : List Note
  linters : List Linter
  outcome : Except ExecutionError FileResult

/-- The text if it differs from the one that was read. -/
def changedFrom (before after : Text) : Option Text :=
  if after = before then none else some after

/-- Lints a file, correcting it first if asked to.  The offenses are those of
the final text. -/
def runFile (engine : Engine) (workingDirectory : Path) (filename : String)
    (content : Text) (autocorrect : Bool) : FileRun :=
  let ⟨progress, last⟩ :=
    engine.passes workingDirectory filename content autocorrect
  { notes := progress.notes
    linters := last.linters
    outcome :=
      match last.failure with
      | some error => .error error
      | none =>
          .ok
            ⟨filename, last.offenses, changedFrom content progress.content,
              progress.corrected, progress.dropped⟩ }

end Engine

end TemplateLint
