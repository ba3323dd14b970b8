import TemplateLint.Discovery
import TemplateLint.Engine
import TemplateLint.Report
import TemplateLint.Verdict

/-!
# Outcomes of a session

A session ends with a verdict, with a failure that it reports, or with a crash
that nothing in it handles.  On the way it writes to the output and error
streams and makes notes.
-/

namespace TemplateLint

/-- The conditions under which a session ends without a report. -/
inductive FailureKind where
  | configNotFound
  | configParse
  | invalidConfig
  | invalidFailLevel
  | unknownFormat
  | unknownLinter
  | pathNotFound
  | readError
  | noFiles
  | linterCrashed
  deriving DecidableEq, Repr

def FailureKind.name : FailureKind → String
  | .configNotFound => "config_not_found"
  | .configParse => "config_parse"
  | .invalidConfig => "invalid_config"
  | .invalidFailLevel => "invalid_fail_level"
  | .unknownFormat => "unknown_format"
  | .unknownLinter => "unknown_linter"
  | .pathNotFound => "path_not_found"
  | .readError => "read_error"
  | .noFiles => "no_files"
  | .linterCrashed => "linter_crashed"

structure Failure where
  kind : FailureKind
  message : Text
  deriving DecidableEq

structure Outcome where
  stats : Stats := {}
  verdict : Option Verdict := none
  failure : Option Failure := none

def Outcome.success (outcome : Outcome) : Bool :=
  outcome.failure.isNone && outcome.verdict.all Verdict.success

/-- Errors that a session does not handle. -/
inductive Crash where
  | config (error : ConfigError)
  | discovery (error : DiscoveryError)
  | patternNotText
  deriving DecidableEq

/-- What a session does beside computing. -/
inductive Event where
  | out (text : Text) (newline : Bool)
  | err (text : Text)
  | note (note : Note)

/-- Why a session does not go on. -/
inductive Halt where
  | ended (outcome : Outcome)
  | crashed (crash : Crash)

/-- A part of a session: its events, and its result unless it halts. -/
structure Stage (α : Type) where
  events : List Event
  result : Except Halt α

namespace Stage

/-- A part without events. -/
def silent (result : Except Halt α) : Stage α := ⟨[], result⟩

def done (value : α) : Stage α := silent (.ok value)

/-- A part followed by another one, unless it halts. -/
def andThen (stage : Stage α) (next : α → Stage β) : Stage β :=
  match stage.result with
  | .error halt => ⟨stage.events, .error halt⟩
  | .ok value =>
      let later := next value
      ⟨stage.events ++ later.events, later.result⟩

instance : Monad Stage where
  pure := done
  bind := andThen

/-- Events alone. -/
def tell (events : List Event) : Stage Unit := ⟨events, .ok ()⟩

/-- Ends the session with a failure. -/
def fail (kind : FailureKind) (message : Text) (stats : Stats := {}) :
    Stage α :=
  silent (.error (.ended { stats, failure := some ⟨kind, message⟩ }))

def crash (error : Crash) : Stage α := silent (.error (.crashed error))

end Stage

end TemplateLint
