import TemplateLint.Calendar
import TemplateLint.Value.Binary64

/-!
# Values of configurations

A configuration is a tree of tables, lists and scalars.  Tables keep the order
of their entries.  Before it is brought into plain form a tree may also hold
tuples, mappings of a kind other than the plain table, and keys other than
texts.  Equality follows the values: `1`, `1.0` and `true` are equal, and the
order of the entries of a table does not matter.
-/

namespace TemplateLint

inductive Value where
  | null
  | bool (flag : Bool)
  | int (number : Int)
  | float (number : Binary64)
  | text (content : String)
  | date (date : Date)
  | time (time : TimeOfDay)
  | moment (moment : Moment)
  | list (items : List Value)
  | tuple (items : List Value)
  | table (entries : List (Value × Value))
  | mapping (entries : List (Value × Value))
  deriving Inhabited

/-- The entries of a table, in their order. -/
abbrev Entries := List (Value × Value)

namespace Value

/-- Whether a condition accepts the value: null, zeros and empty values are
refused. -/
def isTruthy : Value → Bool
  | null => false
  | bool flag => flag
  | int number => number ≠ 0
  | float number => !number.isZero
  | text content => content ≠ ""
  | date _ | time _ | moment _ => true
  | list items | tuple items => !items.isEmpty
  | table entries | mapping entries => !entries.isEmpty

/-- The entries of a table or mapping. -/
def entries? : Value → Option Entries
  | table entries | mapping entries => some entries
  | _ => none

def isMapping (value : Value) : Bool := value.entries?.isSome

/-- The whole number that a number or truth value is equal to. -/
def toInt? : Value → Option Int
  | bool flag => some (if flag then 1 else 0)
  | int number => some number
  | float number => number.toInt?
  | _ => none

/-- Equality of values without parts. -/
def equalScalars : Value → Value → Bool
  | null, null => true
  | text first, text second => first = second
  | date first, date second => first = second
  | time first, time second => first = second
  | moment first, moment second => first.equal second
  | float first, float second => first.equal second
  | first, second =>
      match first.toInt?, second.toInt? with
      | some left, some right => left = right
      | _, _ => false

mutual

def equal : Value → Value → Bool
  | list first, list second => equalItems first second
  | tuple first, tuple second => equalItems first second
  | table first, table second
  | table first, mapping second
  | mapping first, table second
  | mapping first, mapping second =>
      first.length = second.length && equalEntries first second
  | first, second => equalScalars first second

def equalItems : List Value → List Value → Bool
  | [], [] => true
  | first :: left, second :: right => equal first second && equalItems left right
  | _, _ => false

/-- Whether every entry of the first table has an equal one in the second. -/
def equalEntries : Entries → Entries → Bool
  | [], _ => true
  | (key, value) :: later, others =>
      others.any (fun other => equal key other.1 && equal value other.2)
        && equalEntries later others

end

/-- Whether an equal item stands in a list. -/
def occursIn (value : Value) (items : List Value) : Bool :=
  items.any (·.equal value)

end Value

namespace Entries

/-- The value under a key. -/
def get? (entries : Entries) (key : Value) : Option Value :=
  (entries.find? fun entry => entry.1.equal key).map (·.2)

/-- The entries with a value under a key: an equal key stays where it is, a new
one comes last. -/
def put (entries : Entries) (key value : Value) : Entries :=
  match entries with
  | [] => [(key, value)]
  | entry :: later =>
      if entry.1.equal key then (entry.1, value) :: later
      else entry :: put later key value

/-- The value under a text key. -/
def named? (entries : Entries) (name : String) : Option Value :=
  get? entries (.text name)

end Entries

end TemplateLint
