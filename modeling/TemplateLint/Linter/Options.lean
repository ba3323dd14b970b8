import TemplateLint.Linter
import TemplateLint.Linter.WholeNumber
import TemplateLint.Value

/-!
# Options of linters

The entries of a linter's section become its options.  Fields are read in a
fixed order, and the first unacceptable one is reported; an entry that is no
field is unacceptable too.
-/

namespace TemplateLint

/-- Why the value of an option is not acceptable. -/
inductive OptionProblem where
  | unknown
  | unclearFlag
  | notFlag
  | notList
  | notText
  | unclearNumber
  | fraction
  | notFinite
  | tooLarge
  | notNumber
  | belowOne
  | notStyle
  deriving DecidableEq, Repr

def OptionProblem.message : OptionProblem → Text
  | .unknown => "Extra inputs are not permitted"
  | .unclearFlag => "Input should be a valid boolean, unable to interpret input"
  | .notFlag => "Input should be a valid boolean"
  | .notList => "Input should be a valid list"
  | .notText => "Input should be a valid string"
  | .unclearNumber =>
      "Input should be a valid integer, unable to parse string as an integer"
  | .fraction =>
      "Input should be a valid integer, got a number with a fractional part"
  | .notFinite => "Input should be a finite number"
  | .tooLarge =>
      "Unable to parse input string as an integer, exceeded maximum size"
  | .notNumber => "Input should be a valid integer"
  | .belowOne => "Input should be greater than or equal to 1"
  | .notStyle => "Input should be '-' or '='"

/-- An unacceptable option; the key of a list item ends in its index. -/
structure OptionError where
  key : String
  problem : OptionProblem
  deriving DecidableEq

namespace OptionValue

/-- The numbers of 64 bits with a sign. -/
def fitsWord (number : Int) : Bool :=
  -9223372036854775808 ≤ number && number < 9223372036854775808

/-- Floats are taken for whole numbers strictly between the bounds only. -/
def wholeFloat? (number : Binary64) : Option Int :=
  number.toInt?.filter fun value =>
    -9223372036854775808 < value && value < 9223372036854775808

def falseWords : List String := ["0", "off", "f", "false", "n", "no"]

def trueWords : List String := ["1", "on", "t", "true", "y", "yes"]

/-- Truth values, zero and one, and words for them in any case. -/
def flag : Value → Except OptionProblem Bool
  | .bool value => .ok value
  | .int number =>
      if number = 0 then .ok false
      else if number = 1 then .ok true
      else .error (if fitsWord number then .unclearFlag else .notFlag)
  | .float number =>
      match wholeFloat? number with
      | none => .error .notFlag
      | some value =>
          if value = 0 then .ok false
          else if value = 1 then .ok true
          else .error .unclearFlag
  | .text content =>
      let word := String.ofList (content.toList.map Char.toLower)
      if word ∈ falseWords then .ok false
      else if word ∈ trueWords then .ok true
      else .error .unclearFlag
  | _ => .error .notFlag

/-- The texts of a list, from the item with the given index on. -/
def texts (key : String) (index : Nat) :
    List Value → Except OptionError (List String)
  | [] => .ok []
  | .text content :: later => do
      let others ← texts key (index + 1) later
      return content :: others
  | _ :: _ => .error ⟨key ++ "." ++ toString index, .notText⟩

/-- A list of texts. -/
def textList (key : String) : Value → Except OptionError (List String)
  | .list items | .tuple items => texts key 0 items
  | _ => .error ⟨key, .notList⟩

/-- Whole numbers, also when written as text or with a zero fraction. -/
def number : Value → Except OptionProblem Int
  | .bool value => .ok (if value then 1 else 0)
  | .int value => .ok value
  | .float (.finite negative significand exponent) =>
      let number := Binary64.finite negative significand exponent
      match wholeFloat? number with
      | some value => .ok value
      | none =>
          .error (if number.toInt?.isSome then .tooLarge else .fraction)
  | .float _ => .error .notFinite
  | .text content =>
      if WholeNumber.isOversized content.toList then .error .tooLarge
      else
        match WholeNumber.ofText? content.toList with
        | some value => .ok value
        | none => .error .unclearNumber
  | _ => .error .notNumber

/-- The width of a tab, which is at least one. -/
def width (value : Value) : Except OptionProblem Nat := do
  let result ← number value
  if result < 1 then .error .belowOne else return result.toNat

def style : Value → Except OptionProblem TrimMark
  | .text content =>
      if content = "-" then .ok .dash
      else if content = "=" then .ok .equals
      else .error .notStyle
  | _ => .error .notStyle

end OptionValue

/-- The key of the option that only one schema has. -/
def OptionSchema.ownKey? : OptionSchema → Option String
  | .common => none
  | .finalNewline => some "present"
  | .rightTrim => some "enforced_style"
  | .spaceIndentation => some "tab_width"

/-- The value of a schema's own option. -/
def OptionSchema.ownValue (schema : OptionSchema) (value : Value) :
    Except OptionProblem OwnOption :=
  match schema with
  | .common => .ok .none
  | .finalNewline => (OptionValue.flag value).map .present
  | .rightTrim => (OptionValue.style value).map .enforcedStyle
  | .spaceIndentation => (OptionValue.width value).map .tabWidth

namespace LinterConfig

/-- Reports the key of an unacceptable value. -/
def atKey (key : String) : Except OptionProblem α → Except OptionError α
  | .ok value => .ok value
  | .error problem => .error ⟨key, problem⟩

def enabledOf (entries : Entries) : Except OptionError Bool :=
  match entries.named? "enabled" with
  | none => .ok false
  | some value => atKey "enabled" (OptionValue.flag value)

def excludeOf (entries : Entries) : Except OptionError (List String) :=
  match entries.named? "exclude" with
  | none => .ok []
  | some value => OptionValue.textList "exclude" value

def ownOf (schema : OptionSchema) (entries : Entries) :
    Except OptionError OwnOption :=
  match schema.ownKey? with
  | none => .ok schema.default
  | some key =>
      match entries.named? key with
      | none => .ok schema.default
      | some value => atKey key (schema.ownValue value)

/-- Whether an entry is a field of the schema. -/
def isField (schema : OptionSchema) (key : String) : Bool :=
  key = "enabled" || key = "exclude" || schema.ownKey? = some key

/-- Refuses the first entry that is no field. -/
def checkFields (schema : OptionSchema) : Entries → Except OptionError Unit
  | [] => .ok ()
  | (.text key, _) :: later =>
      if isField schema key then checkFields schema later
      else .error ⟨key, .unknown⟩
  | _ :: later => checkFields schema later

/-- The options that the entries of a section give. -/
def resolve (schema : OptionSchema) (entries : Entries) :
    Except OptionError LinterConfig := do
  let enabled ← enabledOf entries
  let exclude ← excludeOf entries
  let own ← ownOf schema entries
  checkFields schema entries
  return ⟨enabled, exclude, own⟩

end LinterConfig

end TemplateLint
