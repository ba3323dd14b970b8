import TemplateLint.Source
import TemplateLint.Value.Written

/-!
# Problems in TOML documents

A problem is reported with the line and column of the place where reading
stopped, which is known from the number of characters that remain.
-/

namespace TemplateLint.Toml

/-- The parts of a dotted key. -/
abbrev Key := List String

/-- The most digits that a decimal integer may have. -/
def digitLimit : Nat := 4300

inductive Problem where
  | invalidStatement
  | invalidValue
  | invalidKeyStart
  | invalidDate
  | missingEquals
  | missingLineEnd
  | missingBracket
  | missingBrackets
  | missingDelimiter (delimiter : Text)
  | unclosedArray
  | unclosedTable
  | unterminatedString
  | unescapedBackslash
  | invalidHexadecimal
  | notScalarValue
  | invalidCharacter (c : Char)
  | illegalCharacter (c : Char)
  | declaredTwice (key : Key)
  | immutable (key : Key)
  | redefined (key : Key)
  | overwritten
  | duplicateKey (name : String)
  | tooManyDigits (count : Nat)
  deriving DecidableEq

/-- A dotted key as a tuple of its parts. -/
def writtenKey (key : Key) : Text := (Value.tuple (key.map .text)).written

def Problem.message : Problem → Text
  | .invalidStatement => "Invalid statement"
  | .invalidValue => "Invalid value"
  | .invalidKeyStart => "Invalid initial character for a key part"
  | .invalidDate => "Invalid date or datetime"
  | .missingEquals => "Expected '=' after a key in a key/value pair"
  | .missingLineEnd => "Expected newline or end of document after a statement"
  | .missingBracket => "Expected ']' at the end of a table declaration"
  | .missingBrackets => "Expected ']]' at the end of an array declaration"
  | .missingDelimiter delimiter => "Expected " ++ Quoted.encode delimiter
  | .unclosedArray => "Unclosed array"
  | .unclosedTable => "Unclosed inline table"
  | .unterminatedString => "Unterminated string"
  | .unescapedBackslash => "Unescaped '\\' in a string"
  | .invalidHexadecimal => "Invalid hex value"
  | .notScalarValue => "Escaped character is not a Unicode scalar value"
  | .invalidCharacter c => "Found invalid character " ++ Quoted.encode [c]
  | .illegalCharacter c => "Illegal character " ++ Quoted.encode [c]
  | .declaredTwice key => "Cannot declare " ++ writtenKey key ++ " twice"
  | .immutable key => "Cannot mutate immutable namespace " ++ writtenKey key
  | .redefined key => "Cannot redefine namespace " ++ writtenKey key
  | .overwritten => "Cannot overwrite a value"
  | .duplicateKey name =>
      "Duplicate inline table key " ++ Quoted.encode name.toList
  | .tooManyDigits count =>
      "Exceeds the limit (" ++ Text.ofNat digitLimit
        ++ " digits) for integer string conversion: value has "
        ++ Text.ofNat count ++ " digits; use sys.set_int_max_str_digits() "
        ++ "to increase the limit"

/-- A problem and the number of characters that had not been read. -/
structure Failure where
  problem : Problem
  remaining : Nat
  deriving DecidableEq

/-- A part of the document that was read, and the text after it. -/
abbrev Parsed (α : Type) := α × Text

/-- Stops at the beginning of a text. -/
def stop (problem : Problem) (rest : Text) : Except Failure α :=
  .error ⟨problem, rest.length⟩

/-- The line and column of a place in a document. -/
def placeText (document : Text) (remaining : Nat) : Text :=
  if remaining = 0 then "end of document"
  else
    let position := document.length - remaining
    let place := document.lineAndColumn position
    "line " ++ Text.ofNat place.1 ++ ", column " ++ Text.ofInt (place.2 + 1)

/-- Why a document has no entries: it is malformed somewhere, or one of its
integers has too many digits. -/
inductive ReadError where
  | malformed (reason : Text)
  | tooManyDigits (count : Nat)
  deriving DecidableEq

def ReadError.message : ReadError → Text
  | .malformed reason => reason
  | .tooManyDigits count => (Problem.tooManyDigits count).message

/-- The error that a failure to read a document is.  Only malformed documents
are reported with a place. -/
def Failure.error (failure : Failure) (document : Text) : ReadError :=
  match failure.problem with
  | .tooManyDigits count => .tooManyDigits count
  | problem =>
      .malformed (problem.message ++ " (at "
        ++ placeText document failure.remaining ++ ")")

end TemplateLint.Toml
