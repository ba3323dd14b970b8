import TemplateLint.Text
import TemplateLint.Text.Character

/-!
# Whole numbers in texts

In plain form a whole number is zero, or digits without a zero in front, with
perhaps a minus sign.  Looser forms are brought into it first: white space
around the number, a plus sign, zeros in front, a fraction of zeros and single
underscores between characters are left out.
-/

namespace TemplateLint.WholeNumber

/-- The most characters that a number in plain form may have. -/
def sizeLimit : Nat := 4300

/-- The number that plain digits stand for. -/
def plainDigits? (text : Text) : Option Nat :=
  match text with
  | ['0'] => some 0
  | c :: _ =>
      if c ≠ '0' ∧ text.all Char.isDigit then some (Text.digitsValue text)
      else none
  | [] => none

/-- The number that a text in plain form stands for. -/
def plain? (text : Text) : Option Int :=
  match text with
  | '-' :: digits => (plainDigits? digits).map fun value => -(value : Int)
  | digits => (plainDigits? digits).map Int.ofNat

/-- Whether a text begins with a number in plain form that has too many
characters. -/
def isOversized (text : Text) : Bool :=
  let (sign, digits) := match text with
    | '-' :: rest => (1, rest)
    | rest => (0, rest)
  digits.head? ≠ some '0'
    && sizeLimit < sign + (digits.takeWhile Char.isDigit).length

/-- White space around a number; information separators are not part of it. -/
def isPadding (c : Char) : Bool :=
  Character.isBlank c && !(0x1C ≤ c.toNat && c.toNat ≤ 0x1F)

/-- A text without white space around it. -/
def unpadded (text : Text) : Text :=
  Text.dropLastRun isPadding (text.dropWhile isPadding)

/-- What remains behind the zero `last` once further zeros and underscores are
left out.  The last of them stays where nothing or a point follows. -/
def afterZeros (last : Char) : Text → Text
  | [] => [last]
  | c :: rest =>
      if c = '0' ∨ c = '_' then afterZeros c rest
      else if c = '.' then last :: c :: rest
      else c :: rest

/-- A text that begins with a digit, without zeros in front. -/
def withoutZeros? : Text → Option Text
  | [] => none
  | c :: rest =>
      if c = '0' then some (afterZeros c rest)
      else if c.isDigit then some (c :: rest)
      else none

/-- The text before the first point, if only zeros follow that point. -/
def withoutFraction (text : Text) : Text :=
  match text.dropWhile (· ≠ '.') with
  | _ :: fraction =>
      if !fraction.isEmpty && fraction.all (· = '0') then
        text.takeWhile (· ≠ '.')
      else text
  | [] => text

/-- The text without underscores, if each stands between two other
characters. -/
def withoutUnderscores (text : Text) : Text :=
  let groups := text.parts '_'
  if groups.all (!·.isEmpty) then groups.flatten else text

/-- The digits of a text that has no sign, and perhaps a sign behind zeros. -/
def cleaned? (text : Text) : Option Text :=
  (withoutZeros? text).map fun digits =>
    withoutUnderscores (withoutFraction digits)

/-- The plain form of a looser one. -/
def toPlain? (text : Text) : Option Text :=
  match unpadded text with
  | '-' :: rest => (cleaned? rest).map ('-' :: ·)
  | '+' :: rest => cleaned? rest
  | rest => cleaned? rest

/-- The number that a text stands for, within the limit of size. -/
def ofText? (text : Text) : Option Int :=
  ((toPlain? text).filter (!isOversized ·)).bind plain?

end TemplateLint.WholeNumber
