import TemplateLint.Text

/-!
# Digits of numbers

The decimal digits of a number are digits, give back the number and begin with
a zero for zero only.  Behind a sign they give back a negative number.
-/

namespace TemplateLint.Text

theorem isDigit_of_mem_ofNat {number : Nat} {c : Char}
    (member : c ∈ ofNat number) : c.isDigit = true :=
  Nat.isDigit_of_mem_toDigits (by decide) (Nat.le_refl 10) member

theorem ofNat_ne_nil (number : Nat) : ofNat number ≠ [] := Nat.toDigits_ne_nil

theorem digitsValue_ofNat (number : Nat) :
    digitsValue (ofNat number) = number := by
  have restored := Nat.ofDigitChars_ten_toDigits (n := number)
  rw [Nat.ofDigitChars_eq_foldl] at restored
  simpa [digitsValue, ofNat, Nat.mul_comm] using restored

theorem head?_ofNat_ne_zero {number : Nat} (positive : 0 < number) :
    (ofNat number).head? ≠ some '0' := by
  induction number using Nat.strongRecOn with
  | ind number induction =>
      rw [ofNat, Nat.toDigits_eq_if (by decide)]
      split
      next small =>
        have table : ∀ digit < 10, 0 < digit →
            Nat.digitChar digit ≠ '0' := by decide
        simpa using table number small positive
      next large =>
        have fewer := induction (number / 10) (by omega) (by omega)
        rw [ofNat] at fewer
        cases digits : Nat.toDigits 10 (number / 10) with
        | nil => exact absurd digits Nat.toDigits_ne_nil
        | cons first others =>
            rw [digits] at fewer
            exact fewer

/-- Only the number zero is written with a zero at its beginning. -/
theorem ofNat_eq_of_head?_eq_zero {number : Nat}
    (zeroFirst : (ofNat number).head? = some '0') : ofNat number = ['0'] := by
  rcases Nat.eq_zero_or_pos number with rfl | positive
  · rfl
  · exact absurd zeroFirst (head?_ofNat_ne_zero positive)

/-! ## Whole numbers with a sign -/

theorem mem_ofInt {number : Int} {c : Char} (member : c ∈ ofInt number) :
    c = '-' ∨ c.isDigit = true := by
  rw [ofInt] at member
  split at member
  · rcases List.mem_cons.mp member with sign | digit
    · exact .inl sign
    · exact .inr (isDigit_of_mem_ofNat digit)
  · exact .inr (isDigit_of_mem_ofNat member)

/-- The number written by some digits and nothing else. -/
def natural? (digits : Text) : Option Nat :=
  if digits ≠ [] ∧ digits.all Char.isDigit then some (digitsValue digits)
  else none

/-- The number written by digits, perhaps behind a sign. -/
def integer? (text : Text) : Option Int :=
  if text.head? = some '-' then (natural? text.tail).map (-Int.ofNat ·)
  else (natural? text).map Int.ofNat

theorem natural?_ofNat (number : Nat) : natural? (ofNat number) = some number := by
  have digits : (ofNat number).all Char.isDigit := by
    rw [List.all_eq_true]
    exact fun _ => isDigit_of_mem_ofNat
  rw [natural?, if_pos ⟨ofNat_ne_nil number, digits⟩, digitsValue_ofNat]

theorem head?_ofNat_ne_sign (number : Nat) : (ofNat number).head? ≠ some '-' := by
  intro sign
  exact absurd (isDigit_of_mem_ofNat (List.mem_of_head? sign)) (by decide)

/-- A written number is read back. -/
theorem integer?_ofInt (number : Int) : integer? (ofInt number) = some number := by
  rw [ofInt]
  split
  next negative =>
    rw [integer?, List.head?_cons, if_pos rfl, List.tail_cons, natural?_ofNat,
      Option.map_some, Option.some.injEq, Int.ofNat_eq_natCast]
    omega
  next nonnegative =>
    rw [integer?, if_neg (head?_ofNat_ne_sign _), natural?_ofNat,
      Option.map_some, Option.some.injEq, Int.ofNat_eq_natCast]
    omega

end TemplateLint.Text
