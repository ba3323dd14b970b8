import TemplateLint.Linter.Name
import TemplateLint.Offense
import TemplateLint.Source.Tag

/-!
# Linters

A linter class has a name, the schema of its options and a check.  The check
is a function from options and source to a list of steps: findings, and a
fault if it breaks off.  A linter is a class with its options and the offenses
it has recorded so far; it keeps those that precede a fault.
-/

namespace TemplateLint

/-- The options a linter class knows beside `enabled` and `exclude`. -/
inductive OptionSchema where
  | common
  | finalNewline
  | rightTrim
  | spaceIndentation
  deriving DecidableEq, Repr

/-- The value of the option that only one schema has. -/
inductive OwnOption where
  | none
  | present (flag : Bool)
  | enforcedStyle (mark : TrimMark)
  | tabWidth (width : Nat)
  deriving DecidableEq, Repr

def OptionSchema.title : OptionSchema → Text
  | .common => "LinterConfig"
  | .finalNewline => "FinalNewlineConfig"
  | .rightTrim => "RightTrimConfig"
  | .spaceIndentation => "SpaceIndentationConfig"

/-- The schema that an option's value belongs to. -/
def OwnOption.schema : OwnOption → OptionSchema
  | .none => .common
  | .present _ => .finalNewline
  | .enforcedStyle _ => .rightTrim
  | .tabWidth _ => .spaceIndentation

/-- The values of options that are not given. -/
def OptionSchema.default : OptionSchema → OwnOption
  | .common => .none
  | .finalNewline => .present true
  | .rightTrim => .enforcedStyle .dash
  | .spaceIndentation => .tabWidth 2

/-- The resolved options of one linter. -/
structure LinterConfig where
  enabled : Bool
  exclude : List String
  own : OwnOption
  deriving DecidableEq

/-- Kinds of error that a check can break off with of its own accord. -/
inductive RaisedKind where
  | runtime
  | value
  | type
  deriving DecidableEq, Repr

def RaisedKind.title : RaisedKind → Text
  | .runtime => "RuntimeError"
  | .value => "ValueError"
  | .type => "TypeError"

/-- Why a check breaks off. -/
inductive Fault where
  | outsideSource (error : RangeError)
  | missingOption (schema : OptionSchema) (option : String)
  | tabWidthTooLarge
  | raised (kind : RaisedKind) (message : Text)
  deriving DecidableEq

def Fault.title : Fault → Text
  | .outsideSource _ => "ValueError"
  | .missingOption _ _ => "AttributeError"
  | .tabWidthTooLarge => "OverflowError"
  | .raised kind _ => kind.title

def Fault.message : Fault → Text
  | .outsideSource error => error.message
  | .missingOption schema option =>
      "'" ++ schema.title ++ "' object has no attribute '" ++ option.toList
        ++ "'"
  | .tabWidthTooLarge => "Python int too large to convert to C int"
  | .raised _ message => message

/-- What a check does next. -/
inductive Step where
  | report (finding : Finding)
  | fail (fault : Fault)

structure LinterClass where
  /-- Tells classes of one name apart; built-in classes have serial zero. -/
  serial : Nat
  name : String
  schema : OptionSchema
  correctable : Bool
  check : LinterConfig → Source → List Step

namespace LinterClass

/-- The name by which command lines call the class. -/
def linterName (linterClass : LinterClass) : String :=
  String.ofList (LinterName.underscore linterClass.name.toList)

/-- Whether two descriptions are of one class. -/
def same (first second : LinterClass) : Bool :=
  first.name = second.name && first.serial = second.serial

/-- Whether a name is the class name or the linter name. -/
def answersTo (linterClass : LinterClass) (name : String) : Bool :=
  name = linterClass.name || name = linterClass.linterName

end LinterClass

/-- The offenses of the steps up to the first fault, for a source with a known
table. -/
def Source.recordWithin (source : Source) (table : Text.LineTable)
    (linterName : String) : List Step → List Offense × Option Fault
  | [] => ([], none)
  | .fail fault :: _ => ([], some fault)
  | .report finding :: later =>
      match source.rangeWithin table finding.beginPos finding.endPos with
      | .error error => ([], some (.outsideSource error))
      | .ok range =>
          let recorded := source.recordWithin table linterName later
          (finding.offense linterName range :: recorded.1, recorded.2)

/-- The offenses of the steps up to the first fault. -/
def Source.record (source : Source) (linterName : String) (steps : List Step) :
    List Offense × Option Fault :=
  source.recordWithin source.lineTable linterName steps

/-- A linter class with its options and the offenses recorded so far. -/
structure Linter where
  linterClass : LinterClass
  config : LinterConfig
  basePath : String
  offenses : List Offense

namespace Linter

/-- A linter that has recorded nothing. -/
def fresh (linterClass : LinterClass) (config : LinterConfig)
    (basePath : String) : Linter :=
  ⟨linterClass, config, basePath, []⟩

/-- The linter after its check of a source, with the fault if there was one. -/
def run (linter : Linter) (source : Source) : Linter × Option Fault :=
  let recorded := source.record linter.linterClass.name
    (linter.linterClass.check linter.config source)
  ({ linter with offenses := linter.offenses ++ recorded.1 }, recorded.2)

def clear (linter : Linter) : Linter := { linter with offenses := [] }

/-- The correction for an offense: only correctable linters make any. -/
def correction? (linter : Linter) (offense : Offense) : Option Correction :=
  if linter.linterClass.correctable then offense.correction else none

end Linter

end TemplateLint
