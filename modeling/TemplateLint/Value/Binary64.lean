import TemplateLint.Text

/-!
# Binary floating-point numbers

A finite number is a significand times a power of two, in the one form that
the 64-bit format stores.  Decimal literals are read by rounding the exact
quotient to the nearest number, ties to the even significand.
-/

namespace TemplateLint

/-- A number of the 64-bit binary format.  A value that is not a number agrees
only with itself, so each one carries the document and the position that it
was read from. -/
inductive Binary64 where
  | finite (negative : Bool) (significand : Nat) (exponent : Int)
  | infinite (negative : Bool)
  | nan (document position : Nat)
  deriving DecidableEq, Repr

namespace Binary64

def zero (negative : Bool) : Binary64 := .finite negative 0 (-1074)

/-- The quotient rounded to the nearest number, ties to the even one. -/
def roundedQuotient (numerator denominator : Nat) : Nat :=
  let quotient := numerator / denominator
  let twice := 2 * (numerator % denominator)
  if denominator < twice || (twice = denominator && quotient % 2 = 1) then
    quotient + 1
  else quotient

/-- The significand of a quotient in units of a power of two. -/
def scaled (numerator denominator : Nat) (exponent : Int) : Nat :=
  if 0 ≤ exponent then
    roundedQuotient numerator (denominator * Nat.pow 2 exponent.toNat)
  else roundedQuotient (numerator * Nat.pow 2 (-exponent).toNat) denominator

/-- Whether a quotient is less than a power of two. -/
def isBelow (numerator denominator : Nat) (exponent : Int) : Bool :=
  if 0 ≤ exponent then numerator < denominator * Nat.pow 2 exponent.toNat
  else numerator * Nat.pow 2 (-exponent).toNat < denominator

/-- The number nearest to a positive quotient.  The exponent leaves 53 binary
digits, or fewer at the lower end of the range. -/
def ofQuotient (negative : Bool) (numerator denominator : Nat) : Binary64 :=
  let estimate : Int := (numerator.log2 : Int) - denominator.log2
  let magnitude :=
    if isBelow numerator denominator estimate then estimate - 1 else estimate
  let exponent := max (magnitude - 52) (-1074)
  let significand := scaled numerator denominator exponent
  let (significand, exponent) :=
    if significand = Nat.pow 2 53 then (Nat.pow 2 52, exponent + 1)
    else (significand, exponent)
  if 971 < exponent then .infinite negative
  else .finite negative significand exponent

/-- The number nearest to `digits` times a power of ten.  Far outside the range
the power is not computed. -/
def ofDecimal (negative : Bool) (digits : Nat) (power : Int) : Binary64 :=
  if digits = 0 then zero negative
  else
    let magnitude := ((Text.ofNat digits).length : Int) + power
    if 310 < magnitude then .infinite negative
    else if magnitude < -330 then zero negative
    else if 0 ≤ power then ofQuotient negative (digits * Nat.pow 10 power.toNat) 1
    else ofQuotient negative digits (Nat.pow 10 (-power).toNat)

/-- A whole number after an optional sign. -/
def signedValue : Text → Int
  | '-' :: digits => -Text.digitsValue digits
  | '+' :: digits => Text.digitsValue digits
  | digits => Text.digitsValue digits

/-- The number of an unsigned decimal literal. -/
def ofUnsignedLiteral (negative : Bool) (literal : Text) : Binary64 :=
  let whole := literal.takeWhile Char.isDigit
  let afterWhole := literal.dropWhile Char.isDigit
  let fraction := match afterWhole with
    | '.' :: rest => rest.takeWhile Char.isDigit
    | _ => []
  let power := match afterWhole.dropWhile fun c => c ≠ 'e' && c ≠ 'E' with
    | _ :: rest => signedValue rest
    | [] => 0
  ofDecimal negative (Text.digitsValue (whole ++ fraction))
    (power - fraction.length)

/-- The number of a decimal literal: an optional sign, digits, a fraction and
an exponent. -/
def ofLiteral : Text → Binary64
  | '-' :: rest => ofUnsignedLiteral true rest
  | '+' :: rest => ofUnsignedLiteral false rest
  | literal => ofUnsignedLiteral false literal

/-- The whole number that a number is, if it is one. -/
def toInt? : Binary64 → Option Int
  | .finite negative significand exponent =>
      let sign : Int := if negative then -1 else 1
      if 0 ≤ exponent then some (sign * (significand * Nat.pow 2 exponent.toNat))
      else
        let unit := Nat.pow 2 (-exponent).toNat
        if significand % unit = 0 then some (sign * (significand / unit : Nat))
        else none
  | _ => none

def isZero : Binary64 → Bool
  | .finite _ significand _ => significand = 0
  | _ => false

/-- Equality of values: both zeros agree. -/
def equal (first second : Binary64) : Bool :=
  first = second || (first.isZero && second.isZero)

end Binary64

end TemplateLint
