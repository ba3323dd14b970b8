import Mathlib.Algebra.Order.Ring.Nat
import Mathlib.Tactic.Ring
import TemplateLint.Proofs.Value.Plain

/-!
# Equality is transitive

Values of different kinds may be equal: a truth value, a whole number and a
floating-point number are compared by the whole number that they are.  This is
still transitive, because a number is stored in one form only.
-/

namespace TemplateLint

/-! ## Numbers in stored form -/

namespace Binary64

/-- A number as the 64-bit format stores it: the significand has all of its 53
binary digits, or the exponent is the lowest one.  All numbers that are read
from literals are like this. -/
def IsStored : Binary64 → Prop
  | .finite _ significand exponent =>
      significand < 2 ^ 53 ∧ -1074 ≤ exponent ∧ exponent ≤ 971 ∧
        (exponent = -1074 ∨ 2 ^ 52 ≤ significand)
  | _ => True

/-- The whole number that a number is, without its sign.  Only one of the two
powers is not one. -/
theorem magnitude_of_toInt? {negative : Bool} {significand : Nat}
    {exponent whole : Int}
    (found : (finite negative significand exponent).toInt? = some whole) :
    significand * 2 ^ exponent.toNat = whole.natAbs * 2 ^ (-exponent).toNat := by
  rw [toInt?] at found
  split at found
  · rename_i risen
    have noFraction : (-exponent).toNat = 0 := by omega
    rw [Option.some.injEq] at found
    rw [noFraction, pow_zero, mul_one, ← found]
    cases negative <;> simp [Int.natAbs_mul, Int.natAbs_pow]
  · rename_i lowered
    have noFactor : exponent.toNat = 0 := by omega
    simp only [Nat.pow_eq] at found
    split at found
    · rename_i divides
      rw [Option.some.injEq] at found
      rw [noFactor, pow_zero, mul_one, ← found, Int.natAbs_mul, Int.natAbs_natCast]
      have exact := Nat.div_mul_cancel (Nat.dvd_of_mod_eq_zero divides)
      cases negative <;> simp [exact]
    · contradiction

theorem negative_iff_of_toInt? {negative : Bool} {significand : Nat}
    {exponent whole : Int}
    (found : (finite negative significand exponent).toInt? = some whole)
    (nonzero : whole ≠ 0) : negative = true ↔ whole < 0 := by
  have signed : ∃ size : Nat, whole = (if negative then -1 else 1) * (size : Int) := by
    rw [toInt?] at found
    split at found
    · rw [Option.some.injEq] at found
      exact ⟨significand * Nat.pow 2 exponent.toNat, by rw [← found]; push_cast; rfl⟩
    · simp only at found
      split at found
      · rw [Option.some.injEq] at found
        exact ⟨_, found.symm⟩
      · contradiction
  obtain ⟨size, rfl⟩ := signed
  cases negative with
  | false => simp
  | true =>
      rw [if_pos rfl] at nonzero ⊢
      constructor
      · intro _
        omega
      · exact fun _ => rfl

/-- A nonzero significand in stored form cannot be shifted. -/
theorem eq_of_shifted {significand shifted shift : Nat}
    (bounded : significand < 2 ^ 53) (full : shift ≠ 0 → 2 ^ 52 ≤ shifted)
    (same : significand = shifted * 2 ^ shift) : shift = 0 := by
  by_contra further
  have doubled : 2 ^ 1 ≤ 2 ^ shift := Nat.pow_le_pow_right (by decide)
    (Nat.one_le_iff_ne_zero.mpr further)
  have large : 2 ^ 52 * 2 ^ 1 ≤ shifted * 2 ^ shift :=
    Nat.mul_le_mul (full further) doubled
  omega

theorem eq_shifted {first second : Nat} {low high : Int} (ordered : low ≤ high)
    (same : first * 2 ^ low.toNat * 2 ^ (-high).toNat =
      second * 2 ^ high.toNat * 2 ^ (-low).toNat) :
    first = second * 2 ^ (high - low).toNat := by
  have balanced : high.toNat + (-low).toNat =
      (high - low).toNat + (low.toNat + (-high).toNat) := by omega
  rw [mul_assoc, mul_assoc, ← pow_add, ← pow_add, balanced,
    pow_add _ (high - low).toNat, ← mul_assoc] at same
  exact Nat.eq_of_mul_eq_mul_right (Nat.two_pow_pos _) same

/-- Stored numbers that are the same whole number are equal. -/
theorem equal_of_toInt? {first second : Binary64} {whole : Int}
    (stored : first.IsStored) (storedSecond : second.IsStored)
    (found : first.toInt? = some whole)
    (foundSecond : second.toInt? = some whole) : first.equal second = true := by
  cases first with
  | infinite negative => contradiction
  | nan document position => contradiction
  | finite negative significand exponent =>
  cases second with
  | infinite negative => contradiction
  | nan document position => contradiction
  | finite negative' significand' exponent' =>
  have size := magnitude_of_toInt? found
  have size' := magnitude_of_toInt? foundSecond
  by_cases zero : whole = 0
  · subst zero
    rw [Int.natAbs_zero, zero_mul, mul_eq_zero] at size size'
    have nothing := size.resolve_right (pow_ne_zero _ (by decide))
    have nothing' := size'.resolve_right (pow_ne_zero _ (by decide))
    simp [equal, isZero, nothing, nothing']
  · have sameSign : negative = negative' := by
      rw [Bool.eq_iff_iff, negative_iff_of_toInt? found zero,
        negative_iff_of_toInt? foundSecond zero]
    have sameSize : significand * 2 ^ exponent.toNat * 2 ^ (-exponent').toNat =
        significand' * 2 ^ exponent'.toNat * 2 ^ (-exponent).toNat := by
      rw [size, size']
      ring
    obtain ⟨bounded, lowest, -, full⟩ := stored
    obtain ⟨bounded', lowest', -, full'⟩ := storedSecond
    have sameExponent : exponent = exponent' := by
      rcases Int.le_total exponent exponent' with ordered | ordered
      · have still := eq_of_shifted bounded
          (fun shifted => full'.resolve_left (by omega))
          (eq_shifted ordered sameSize)
        omega
      · have still := eq_of_shifted bounded'
          (fun shifted => full.resolve_left (by omega))
          (eq_shifted ordered sameSize.symm)
        omega
    subst sameExponent
    have sameDigits := eq_shifted le_rfl sameSize
    rw [sub_self, Int.toNat_zero, pow_zero, mul_one] at sameDigits
    simp [equal, sameSign, sameDigits]

end Binary64

/-! ## Scalars -/

/-- Whether a moment has an offset, and its time with the offset taken off. -/
def Moment.instant (moment : Moment) : Bool × Int :=
  (moment.offset.isSome, moment.localTime - moment.offset.getD 0 * 60000000)

theorem Moment.equal_iff {first second : Moment} :
    first.equal second = true ↔ first.instant = second.instant := by
  rw [equal, instant, instant]
  cases first.offset <;> cases second.offset <;> simp

theorem Binary64.eq_or_zero_of_equal {first second : Binary64}
    (same : first.equal second = true) :
    second = first ∨ first.toInt? = some 0 ∧ second.toInt? = some 0 := by
  have zero : ∀ number : Binary64, number.isZero = true →
      number.toInt? = some 0 := by
    intro number isZero
    cases number with
    | finite negative significand exponent =>
        simp only [Binary64.isZero, decide_eq_true_eq] at isZero
        subst isZero
        simp [Binary64.toInt?]
    | _ => contradiction
  simp only [Binary64.equal, Bool.or_eq_true, Bool.and_eq_true,
    decide_eq_true_eq] at same
  rcases same with rfl | ⟨isZero, isZero'⟩
  · exact .inl rfl
  · exact .inr ⟨zero first isZero, zero second isZero'⟩

namespace Value

variable {first second third : Value}

/-- Whether a value has no parts. -/
def isScalar : Value → Bool
  | list _ | tuple _ | table _ | mapping _ => false
  | _ => true

/-- Numbers are compared by the whole number that they are. -/
theorem sameWhole_iff {left right : Option Int} :
    (match left, right with
      | some left, some right => decide (left = right)
      | _, _ => false) = true ↔
      ∃ whole, left = some whole ∧ right = some whole := by
  cases left with
  | none => simp
  | some left => cases right <;> simp [eq_comm]

theorem equal_of_isScalar (scalar : first.isScalar = true) :
    first.equal second = first.equalScalars second := by
  cases first with
  | list | tuple | table | mapping => contradiction
  | _ => cases second <;> rfl

/-- Equal scalars are the same whole number, the same moment, or the same
value. -/
theorem scalars_of_equal (scalar : first.isScalar = true)
    (same : first.equal second = true) :
    (∃ whole, first.toInt? = some whole ∧ second.toInt? = some whole) ∨
      (∃ before after, first = .moment before ∧ second = .moment after ∧
        before.instant = after.instant) ∨
      second = first := by
  rw [equal_of_isScalar scalar] at same
  unfold equalScalars at same
  split at same
  · exact .inr (.inr rfl)
  · exact .inr (.inr (congrArg text (of_decide_eq_true same).symm))
  · exact .inr (.inr (congrArg date (of_decide_eq_true same).symm))
  · exact .inr (.inr (congrArg time (of_decide_eq_true same).symm))
  · exact .inr (.inl ⟨_, _, rfl, rfl, Moment.equal_iff.mp same⟩)
  · rcases Binary64.eq_or_zero_of_equal same with rfl | zeros
    · exact .inr (.inr rfl)
    · exact .inl ⟨0, zeros⟩
  · exact .inl (sameWhole_iff.mp same)

mutual

/-- All numbers in a value are in stored form. -/
def IsStored : Value → Prop
  | float number => number.IsStored
  | list items | tuple items => AreStored items
  | table entries | mapping entries => AreStoredEntries entries
  | _ => True

def AreStored : List Value → Prop
  | [] => True
  | item :: later => IsStored item ∧ AreStored later

def AreStoredEntries : List (Value × Value) → Prop
  | [] => True
  | (key, value) :: later =>
      IsStored key ∧ IsStored value ∧ AreStoredEntries later

end

theorem areStored_iff {items : List Value} :
    AreStored items ↔ ∀ item ∈ items, item.IsStored := by
  induction items with
  | nil => simp [AreStored]
  | cons item items induction => simp [AreStored, induction]

theorem isStored_of_mem {items : List Value} (stored : AreStored items)
    {item : Value} (member : item ∈ items) : item.IsStored :=
  areStored_iff.mp stored item member

theorem isStored_of_mem_entries {entries : Entries}
    (stored : AreStoredEntries entries) {entry : Value × Value}
    (member : entry ∈ entries) : entry.1.IsStored ∧ entry.2.IsStored := by
  induction entries with
  | nil => cases member
  | cons other entries induction =>
      rcases List.mem_cons.mp member with rfl | later
      · exact ⟨stored.1, stored.2.1⟩
      · exact induction stored.2.2 later

theorem isStored_of_get? {entries : Entries} {key value : Value}
    (stored : AreStoredEntries entries) (found : entries.get? key = some value) :
    value.IsStored := by
  rw [Entries.get?, Option.map_eq_some_iff] at found
  obtain ⟨entry, found, rfl⟩ := found
  exact (isStored_of_mem_entries stored (List.mem_of_find?_eq_some found)).2

/-- Stored numbers of any kind are equal if they are the same whole number. -/
theorem equal_of_toInt? {whole : Int} (stored : first.IsStored)
    (storedSecond : second.IsStored) (found : first.toInt? = some whole)
    (foundSecond : second.toInt? = some whole) : first.equal second = true := by
  have compared := sameWhole_iff.mpr ⟨whole, found, foundSecond⟩
  cases first with
  | bool flag | int number =>
      cases second with
      | bool | int | float => exact compared
      | _ => contradiction
  | float number =>
      cases second with
      | bool | int => exact compared
      | float other =>
          exact Binary64.equal_of_toInt? stored storedSecond found foundSecond
      | _ => contradiction
  | _ => contradiction

/-- The first and the last value matter alone: what stands between them may be
a number that is not in stored form. -/
theorem equal_trans_of_isScalar (scalar : first.isScalar = true)
    (stored : first.IsStored) (storedThird : third.IsStored)
    (left : first.equal second = true) (right : second.equal third = true) :
    first.equal third = true := by
  rcases scalars_of_equal scalar left with
    ⟨whole, found, foundSecond⟩ | ⟨before, between, rfl, rfl, same⟩ | rfl
  · have scalarSecond : second.isScalar = true := by
      cases second <;> first | rfl | contradiction
    rcases scalars_of_equal scalarSecond right with
      ⟨whole', again, foundThird⟩ | ⟨before, after, rfl, rfl, same⟩ | rfl
    · rw [foundSecond, Option.some.injEq] at again
      subst again
      exact equal_of_toInt? stored storedThird found foundThird
    · contradiction
    · exact left
  · rcases scalars_of_equal rfl right with
      ⟨whole, again, -⟩ | ⟨between', after, here, rfl, sameAgain⟩ | rfl
    · contradiction
    · cases here
      exact Moment.equal_iff.mpr (same.trans sameAgain)
    · exact left
  · exact right

/-! ## Lists and tables -/

theorem equal_list_iff {items : List Value} :
    (list items).equal second = true ↔
      ∃ others, second = .list others ∧ equalItems items others = true := by
  cases second <;> simp [equal, equalScalars, toInt?]

theorem equal_tuple_iff {items : List Value} :
    (tuple items).equal second = true ↔
      ∃ others, second = .tuple others ∧ equalItems items others = true := by
  cases second <;> simp [equal, equalScalars, toInt?]

theorem equal_mapping_iff {entries : Entries} (mapped : first.entries? = some entries) :
    first.equal second = true ↔
      ∃ others, second.entries? = some others ∧ entries.length = others.length ∧
        equalEntries entries others = true := by
  cases first with
  | table own | mapping own =>
      cases mapped
      cases second <;> simp [equal, equalScalars, toInt?, entries?]
  | _ => contradiction

theorem equalEntries_cons_iff {key value : Value} {later others : Entries} :
    equalEntries ((key, value) :: later) others = true ↔
      (∃ other ∈ others, key.equal other.1 = true ∧ value.equal other.2 = true) ∧
        equalEntries later others = true := by
  rw [equalEntries, Bool.and_eq_true, List.any_eq_true]
  simp only [Bool.and_eq_true]

theorem exists_of_equalEntries {entries others : Entries} {entry : Value × Value}
    (same : equalEntries entries others = true) (member : entry ∈ entries) :
    ∃ other ∈ others, entry.1.equal other.1 = true ∧
      entry.2.equal other.2 = true := by
  induction entries with
  | nil => cases member
  | cons first entries induction =>
      obtain ⟨here, later⟩ := equalEntries_cons_iff.mp same
      rcases List.mem_cons.mp member with rfl | behind
      · exact here
      · exact induction later behind

theorem areStoredEntries_of_entries? {entries : Entries} (stored : first.IsStored)
    (mapped : first.entries? = some entries) : AreStoredEntries entries := by
  cases first with
  | table own | mapping own =>
      cases mapped
      exact stored
  | _ => contradiction

mutual

/-- Equality is transitive between values in stored form. -/
theorem equal_trans : (first : Value) → {second third : Value} →
    first.IsStored → third.IsStored → first.equal second = true →
    second.equal third = true → first.equal third = true
  | .list items, _, _, stored, storedThird, left, right => by
      obtain ⟨others, rfl, sameLeft⟩ := equal_list_iff.mp left
      obtain ⟨last, rfl, sameRight⟩ := equal_list_iff.mp right
      exact equal_list_iff.mpr ⟨last, rfl,
        equalItems_trans items stored storedThird sameLeft sameRight⟩
  | .tuple items, _, _, stored, storedThird, left, right => by
      obtain ⟨others, rfl, sameLeft⟩ := equal_tuple_iff.mp left
      obtain ⟨last, rfl, sameRight⟩ := equal_tuple_iff.mp right
      exact equal_tuple_iff.mpr ⟨last, rfl,
        equalItems_trans items stored storedThird sameLeft sameRight⟩
  | .table entries, _, _, stored, storedThird, left, right => by
      obtain ⟨others, mapped, size, sameLeft⟩ := (equal_mapping_iff rfl).mp left
      obtain ⟨last, mappedThird, sizeThird, sameRight⟩ :=
        (equal_mapping_iff mapped).mp right
      exact (equal_mapping_iff rfl).mpr ⟨last, mappedThird, size.trans sizeThird,
        equalEntries_trans entries stored
          (areStoredEntries_of_entries? storedThird mappedThird) sameLeft sameRight⟩
  | .mapping entries, _, _, stored, storedThird, left, right => by
      obtain ⟨others, mapped, size, sameLeft⟩ := (equal_mapping_iff rfl).mp left
      obtain ⟨last, mappedThird, sizeThird, sameRight⟩ :=
        (equal_mapping_iff mapped).mp right
      exact (equal_mapping_iff rfl).mpr ⟨last, mappedThird, size.trans sizeThird,
        equalEntries_trans entries stored
          (areStoredEntries_of_entries? storedThird mappedThird) sameLeft sameRight⟩
  | .null, _, _, stored, storedThird, left, right
  | .bool _, _, _, stored, storedThird, left, right
  | .int _, _, _, stored, storedThird, left, right
  | .float _, _, _, stored, storedThird, left, right
  | .text _, _, _, stored, storedThird, left, right
  | .date _, _, _, stored, storedThird, left, right
  | .time _, _, _, stored, storedThird, left, right
  | .moment _, _, _, stored, storedThird, left, right =>
      equal_trans_of_isScalar rfl stored storedThird left right

theorem equalItems_trans : (first : List Value) → {second third : List Value} →
    AreStored first → AreStored third → equalItems first second = true →
    equalItems second third = true → equalItems first third = true
  | [], [], [], _, _, _, _ => rfl
  | first :: left, second :: between, third :: right, stored, storedThird,
      sameLeft, sameRight => by
      simp only [equalItems, Bool.and_eq_true] at sameLeft sameRight ⊢
      exact ⟨equal_trans first stored.1 storedThird.1 sameLeft.1 sameRight.1,
        equalItems_trans left stored.2 storedThird.2 sameLeft.2 sameRight.2⟩

theorem equalEntries_trans : (first : List (Value × Value)) →
    {second third : Entries} → AreStoredEntries first → AreStoredEntries third →
    equalEntries first second = true → equalEntries second third = true →
    equalEntries first third = true
  | [], _, _, _, _, _, _ => rfl
  | (key, value) :: later, _, _, stored, storedThird, sameLeft, sameRight => by
      obtain ⟨⟨between, member, sameKey, sameValue⟩, sameLater⟩ :=
        equalEntries_cons_iff.mp sameLeft
      obtain ⟨last, memberLast, sameKey', sameValue'⟩ :=
        exists_of_equalEntries sameRight member
      obtain ⟨storedKey, storedValue⟩ :=
        isStored_of_mem_entries storedThird memberLast
      refine equalEntries_cons_iff.mpr ⟨⟨last, memberLast, ?_, ?_⟩, ?_⟩
      · exact equal_trans key stored.1 storedKey sameKey sameKey'
      · exact equal_trans value stored.2.1 storedValue sameValue sameValue'
      · exact equalEntries_trans later stored.2.2 storedThird sameLater sameRight

end

end Value

end TemplateLint
