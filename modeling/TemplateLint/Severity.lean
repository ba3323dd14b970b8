import TemplateLint.Text

/-!
# Severities

The six levels of an offense, from least to most severe.
-/

namespace TemplateLint

inductive Severity where
  | info
  | refactor
  | convention
  | warning
  | error
  | fatal
  deriving DecidableEq, Repr

namespace Severity

def all : List Severity :=
  [.info, .refactor, .convention, .warning, .error, .fatal]

/-- The place of a level in the order of severity. -/
def rank : Severity → Nat
  | .info => 1
  | .refactor => 2
  | .convention => 3
  | .warning => 4
  | .error => 5
  | .fatal => 6

instance : LE Severity := ⟨fun lower higher => lower.rank ≤ higher.rank⟩

instance (lower higher : Severity) : Decidable (lower ≤ higher) :=
  inferInstanceAs (Decidable (lower.rank ≤ higher.rank))

def label : Severity → String
  | .info => "info"
  | .refactor => "refactor"
  | .convention => "convention"
  | .warning => "warning"
  | .error => "error"
  | .fatal => "fatal"

def code : Severity → Char
  | .info => 'I'
  | .refactor => 'R'
  | .convention => 'C'
  | .warning => 'W'
  | .error => 'E'
  | .fatal => 'F'

def ofLabel? (label : String) : Option Severity :=
  all.find? fun severity => severity.label = label

/-- The capital of a letter, as far as it can be a code.  The dotless i is the
only letter beyond ASCII whose capital is one. -/
def capital (c : Char) : Char := if c = 'ı' then 'I' else c.toUpper

/-- Whether a text is the code or the label of a level, in any case. -/
def isNamedBy (severity : Severity) (text : Text) : Bool :=
  text.map capital = [severity.code]
    || text.map Char.toLower = severity.label.toList

/-- The level that a text names by code or label, inside white space. -/
def parse? (text : Text) : Option Severity :=
  all.find? (·.isNamedBy text.trim)

/-- What is said of a text that names no level. -/
def unknownMessage (text : Text) : Text :=
  text ++ ": not a valid failure level ("
    ++ Text.join ", " (all.map (·.label.toList)) ++ ")"

end Severity

end TemplateLint
