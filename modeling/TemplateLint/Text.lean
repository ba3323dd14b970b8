import TemplateLint.Text.Character

/-!
# Texts

A text is the list of its characters, and positions in a text count
characters.  The module holds the cuts that the rest of the library makes:
at a separating character, at a signed position, and around white space.
-/

namespace TemplateLint

/-- Characters in reading order. -/
abbrev Text := List Char

instance : Coe String Text := ⟨String.toList⟩

namespace Text

/-- The part before the first separator, with the parts after it. -/
def cut (separator : Char) : Text → Text × List Text
  | [] => ([], [])
  | c :: rest =>
      let parts := cut separator rest
      if c = separator then ([], parts.1 :: parts.2)
      else (c :: parts.1, parts.2)

/-- The parts between the separators.  There is always at least one. -/
def parts (separator : Char) (text : Text) : List Text :=
  (cut separator text).1 :: (cut separator text).2

/-- The newline-separated lines. -/
def lines (text : Text) : List Text := parts '\n' text

/-- Line ends of any kind become newlines. -/
def universalNewlines : Text → Text
  | '\r' :: '\n' :: rest => '\n' :: universalNewlines rest
  | '\r' :: rest => '\n' :: universalNewlines rest
  | c :: rest => c :: universalNewlines rest
  | [] => []

/-- Texts one after another with a separator between each two. -/
def join (separator : Text) (texts : List Text) : Text :=
  separator.intercalate texts

/-- The place of a signed position in a text of the given length: negative
positions count from the end, and places outside the text move to its edge. -/
def place (length : Nat) (position : Int) : Nat :=
  if position < 0 then (position + length).toNat else min position.toNat length

/-- The text before a signed position. -/
def upTo (text : Text) (position : Int) : Text :=
  text.take (place text.length position)

/-- The text from a signed position on. -/
def since (text : Text) (position : Int) : Text :=
  text.drop (place text.length position)

/-- The element at a signed index, where negative indices count from the end. -/
def entry? (items : List α) (index : Int) : Option α :=
  if 0 ≤ index then items[index.toNat]?
  else if -index ≤ items.length then items[(index + items.length).toNat]?
  else none

/-- The longest end of a text that satisfies a test throughout. -/
def lastRun (test : Char → Bool) (text : Text) : Text :=
  (text.reverse.takeWhile test).reverse

/-- The text without its longest end that satisfies a test throughout. -/
def dropLastRun (test : Char → Bool) (text : Text) : Text :=
  (text.reverse.dropWhile test).reverse

/-- The text without white space at both ends. -/
def trim (text : Text) : Text :=
  dropLastRun Character.isBlank (text.dropWhile Character.isBlank)

/-- Decimal digits of a number. -/
def ofNat (number : Nat) : Text := Nat.toDigits 10 number

/-- Decimal digits of a number after its sign, if it is negative. -/
def ofInt (number : Int) : Text :=
  if number < 0 then '-' :: ofNat number.natAbs else ofNat number.natAbs

/-- At least `width` digits, filled up with zeros. -/
def padded (width : Nat) (number : Nat) : Text :=
  let digits := ofNat number
  List.replicate (width - digits.length) '0' ++ digits

/-- Hexadecimal digits in lower case, filled up with zeros. -/
def hexadecimal (width : Nat) (number : Nat) : Text :=
  let digits := Nat.toDigits 16 number
  List.replicate (width - digits.length) '0' ++ digits

/-- The value of a hexadecimal digit. -/
def hexadecimalValue? (c : Char) : Option Nat :=
  if '0' ≤ c ∧ c ≤ '9' then some (c.toNat - '0'.toNat)
  else if 'a' ≤ c ∧ c ≤ 'f' then some (c.toNat - 'a'.toNat + 10)
  else if 'A' ≤ c ∧ c ≤ 'F' then some (c.toNat - 'A'.toNat + 10)
  else none

/-- The number written by ASCII digits. -/
def digitsValue (digits : Text) : Nat :=
  digits.foldl (fun value c => value * 10 + (c.toNat - '0'.toNat)) 0

end Text

end TemplateLint
