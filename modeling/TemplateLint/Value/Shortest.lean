import TemplateLint.Value.Binary64

/-!
# Shortest decimal form

The written form of a number has the fewest decimal digits that are read back
as the same number, and of those the digits nearest to it; of two equally near
ones the even one is taken.
-/

namespace TemplateLint.Binary64

/-- An exact positive fraction. -/
structure Fraction where
  numerator : Nat
  denominator : Nat

/-- A whole number times a power of two. -/
def Fraction.binary (significand : Nat) (exponent : Int) : Fraction :=
  if 0 ≤ exponent then ⟨significand * Nat.pow 2 exponent.toNat, 1⟩
  else ⟨significand, Nat.pow 2 (-exponent).toNat⟩

/-- A whole number times a power of ten. -/
def Fraction.decimal (digits : Nat) (power : Int) : Fraction :=
  if 0 ≤ power then ⟨digits * Nat.pow 10 power.toNat, 1⟩
  else ⟨digits, Nat.pow 10 (-power).toNat⟩

def Fraction.isLess (first second : Fraction) : Bool :=
  first.numerator * second.denominator < second.numerator * first.denominator

/-- The fractions that are read as one number: those between two bounds, and
the bounds themselves when the significand is even. -/
structure Interval where
  low : Fraction
  high : Fraction
  closed : Bool

/-- Half a unit to both sides, or a quarter below a power of two. -/
def intervalOf (significand : Nat) (exponent : Int) : Interval :=
  { low :=
      if significand = Nat.pow 2 52 ∧ -1074 < exponent then
        .binary (4 * significand - 1) (exponent - 2)
      else .binary (2 * significand - 1) (exponent - 1)
    high := .binary (2 * significand + 1) (exponent - 1)
    closed := significand % 2 = 0 }

def Interval.holds (interval : Interval) (value : Fraction) : Bool :=
  if interval.closed then
    !value.isLess interval.low && !interval.high.isLess value
  else interval.low.isLess value && value.isLess interval.high

/-- The power of ten of the first digit.  All numbers of the format exceed
ten to the power of minus 400. -/
def leadingPower (value : Fraction) : Int :=
  ((Text.ofNat (value.numerator * Nat.pow 10 400 / value.denominator)).length : Int)
    - 401

/-- Digits and the power of ten of the last one. -/
structure Decimal where
  digits : Nat
  power : Int

/-- The nearest decimal with a given last place that lies in the interval. -/
def onGrid? (value : Fraction) (interval : Interval) (power : Int) :
    Option Decimal :=
  let unit := Fraction.decimal 1 power
  let numerator := value.numerator * unit.denominator
  let denominator := value.denominator * unit.numerator
  let below := numerator / denominator
  let nearest := roundedQuotient numerator denominator
  let other := if nearest = below then below + 1 else below
  if interval.holds (.decimal nearest power) then some ⟨nearest, power⟩
  else if interval.holds (.decimal other power) then some ⟨other, power⟩
  else none

/-- The shortest decimal of a finite number other than zero. -/
def shortest (significand : Nat) (exponent : Int) : Decimal :=
  let value := Fraction.binary significand exponent
  let interval := intervalOf significand exponent
  let leading := leadingPower value
  ((List.range 17).findSome? fun (more : Nat) =>
    onGrid? value interval (leading - more)).getD ⟨significand, 0⟩

/-- Moves zeros at the end into the power. -/
def Decimal.withoutZeros : Nat → Decimal → Decimal
  | 0, decimal => decimal
  | steps + 1, decimal =>
      if decimal.digits ≠ 0 ∧ decimal.digits % 10 = 0 then
        withoutZeros steps ⟨decimal.digits / 10, decimal.power + 1⟩
      else decimal

/-- How the digits of a number are laid out. -/
structure Layout where
  /-- Positional forms have their point at or after this place. -/
  firstPoint : Int
  /-- Positional forms have their point at or before this place. -/
  lastPoint : Int
  /-- The least number of digits of an exponent. -/
  exponentWidth : Nat
  infinity : Text
  notANumber : Text

/-- Numbers from one ten-thousandth up to ten to the power of sixteen are
written positionally, all others with an exponent of at least two digits. -/
def layout : Layout := ⟨-3, 16, 2, "inf", "nan"⟩

/-- A positional form always has a point with a digit on both sides. -/
def positional (digits : Text) (point : Int) : Text :=
  if point ≤ 0 then
    '0' :: '.' :: List.replicate (-point).toNat '0' ++ digits
  else
    let whole := point.toNat
    let padding := List.replicate (whole - digits.length) '0'
    let fraction := digits.drop whole
    digits.take whole ++ padding ++ ['.']
      ++ (if fraction.isEmpty then ['0'] else fraction)

/-- An exponent always has a sign; the point is left out after one digit. -/
def scientific (digits : Text) (point : Int) : Text :=
  let exponent := point - 1
  let fraction := digits.drop 1
  digits.take 1 ++ (if fraction.isEmpty then [] else '.' :: fraction)
    ++ ['e', if exponent < 0 then '-' else '+']
    ++ Text.padded layout.exponentWidth exponent.natAbs

/-- The written form of a number. -/
def text : Binary64 → Text
  | .nan _ _ => layout.notANumber
  | .infinite negative => (if negative then ['-'] else []) ++ layout.infinity
  | .finite negative significand exponent =>
      let sign := if negative then ['-'] else []
      if significand = 0 then sign ++ "0.0"
      else
        let decimal := (shortest significand exponent).withoutZeros 20
        let digits := Text.ofNat decimal.digits
        let point := (digits.length : Int) + decimal.power
        sign ++ (if layout.firstPoint ≤ point ∧ point ≤ layout.lastPoint then
          positional digits point
        else scientific digits point)

end TemplateLint.Binary64
