import TemplateLint.Proofs.Value.Equality

/-!
# Numbers that are read

Every number that is read from a decimal literal is in stored form.  Its
exponent comes from an estimate that is off by one at most, so that the
quotient has 53 binary digits in front of the point, or the exponent is the
lowest one.  Rounding may add a digit, which is then shifted out.
-/

namespace TemplateLint.Binary64

variable {numerator denominator bound : Nat} {exponent : Int}
  {negative : Bool}

/-! ## Rounding -/

theorem roundedQuotient_le (below : numerator < bound * denominator) :
    roundedQuotient numerator denominator ≤ bound := by
  have short : numerator / denominator < bound :=
    Nat.div_lt_of_lt_mul (by rwa [Nat.mul_comm])
  unfold roundedQuotient
  simp only
  split <;> omega

theorem le_roundedQuotient (positive : 0 < denominator)
    (reaches : bound * denominator ≤ numerator) :
    bound ≤ roundedQuotient numerator denominator := by
  have long : bound ≤ numerator / denominator :=
    (Nat.le_div_iff_mul_le positive).mpr reaches
  unfold roundedQuotient
  simp only
  split <;> omega

/-- A quotient in units of a power of two is again a quotient.  One of the two
powers is one. -/
theorem scaled_eq : scaled numerator denominator exponent =
    roundedQuotient (numerator * 2 ^ (-exponent).toNat)
      (denominator * 2 ^ exponent.toNat) := by
  rw [scaled]
  split
  · have noFraction : (-exponent).toNat = 0 := by omega
    rw [noFraction, pow_zero, mul_one, Nat.pow_eq]
  · have noFactor : exponent.toNat = 0 := by omega
    rw [noFactor, pow_zero, mul_one, Nat.pow_eq]

theorem isBelow_iff : isBelow numerator denominator exponent = true ↔
    numerator * 2 ^ (-exponent).toNat < denominator * 2 ^ exponent.toNat := by
  rw [isBelow]
  split
  · have noFraction : (-exponent).toNat = 0 := by omega
    rw [noFraction, pow_zero, mul_one, Nat.pow_eq, decide_eq_true_iff]
  · have noFactor : exponent.toNat = 0 := by omega
    rw [noFactor, pow_zero, mul_one, Nat.pow_eq, decide_eq_true_iff]

/-- The same comparison in units of a lower power of two. -/
theorem isBelow_add_iff {digits : Nat} :
    isBelow numerator denominator (exponent + digits) = true ↔
      numerator * 2 ^ (-exponent).toNat <
        2 ^ digits * (denominator * 2 ^ exponent.toNat) := by
  obtain ⟨shift, fraction⟩ : ∃ shift, (-exponent).toNat =
      (-(exponent + digits)).toNat + shift := Nat.exists_eq_add_of_le (by omega)
  have factor : digits + exponent.toNat = (exponent + digits).toNat + shift := by
    omega
  rw [isBelow_iff, Nat.mul_left_comm, ← pow_add, fraction, factor, pow_add, pow_add,
    ← mul_assoc, ← mul_assoc, Nat.mul_lt_mul_right (Nat.two_pow_pos shift)]

theorem isBelow_mono {higher : Int} (ordered : exponent ≤ higher)
    (below : isBelow numerator denominator exponent = true) :
    isBelow numerator denominator higher = true := by
  obtain ⟨digits, rfl⟩ := Int.le.dest ordered
  rw [isBelow_iff] at below
  rw [isBelow_add_iff]
  exact below.trans_le (Nat.le_mul_of_pos_left _ (Nat.two_pow_pos digits))

theorem isBelow_sub_iff {high low : Nat} :
    isBelow numerator denominator ((high : Int) - low) = true ↔
      numerator * 2 ^ low < 2 ^ high * denominator := by
  have moved : (high : Int) - low = -(low : Int) + high := by omega
  have fraction : (- -(low : Int)).toNat = low := by omega
  have noFactor : (-(low : Int)).toNat = 0 := by omega
  rw [moved, isBelow_add_iff, fraction, noFactor, pow_zero, mul_one]

/-! ## The exponent -/

/-- The exponent of the first binary digit of a quotient. -/
structure IsMagnitude (numerator denominator : Nat) (magnitude : Int) : Prop where
  reached : ¬isBelow numerator denominator magnitude = true
  exceeded : isBelow numerator denominator (magnitude + 1) = true

/-- The difference of the two lengths is off by one at most. -/
theorem isMagnitude_of_estimate {estimate : Int} (positive : 0 < numerator)
    (positiveBelow : 0 < denominator)
    (difference : estimate = (numerator.log2 : Int) - denominator.log2) :
    IsMagnitude numerator denominator
      (if isBelow numerator denominator estimate then estimate - 1 else estimate) := by
  have above : isBelow numerator denominator (estimate + 1) = true := by
    have longer : estimate + 1 =
        ((numerator.log2 + 1 : Nat) : Int) - denominator.log2 := by omega
    rw [longer, isBelow_sub_iff]
    exact Nat.mul_lt_mul_of_lt_of_le Nat.lt_log2_self
      (Nat.log2_self_le positiveBelow.ne') positiveBelow
  have under : ¬isBelow numerator denominator (estimate - 1) = true := by
    have shorter : estimate - 1 =
        (numerator.log2 : Int) - (denominator.log2 + 1 : Nat) := by omega
    rw [shorter, isBelow_sub_iff, Nat.not_lt]
    exact Nat.mul_le_mul (Nat.log2_self_le positive.ne') Nat.lt_log2_self.le
  split
  · next below => exact ⟨under, by rwa [sub_add_cancel]⟩
  · next reached => exact ⟨reached, above⟩

/-! ## Stored form -/

/-- A quotient in units that leave 53 binary digits of it, or fewer if the
units are the lowest ones. -/
theorem scaled_bounds {magnitude : Int} (positive : 0 < denominator)
    (first : IsMagnitude numerator denominator magnitude) :
    let exponent := max (magnitude - 52) (-1074)
    scaled numerator denominator exponent ≤ 2 ^ 53 ∧ -1074 ≤ exponent ∧
      (exponent = -1074 ∨ 2 ^ 52 ≤ scaled numerator denominator exponent) := by
  intro exponent
  have units : 0 < denominator * 2 ^ exponent.toNat :=
    Nat.mul_pos positive (Nat.two_pow_pos _)
  rw [scaled_eq]
  refine ⟨?_, le_max_right _ _, ?_⟩
  · apply roundedQuotient_le
    have reaches : magnitude + 1 ≤ exponent + (53 : Nat) := by omega
    exact isBelow_add_iff.mp (isBelow_mono reaches first.exceeded)
  · rcases max_choice (magnitude - 52) (-1074) with normal | lowest
    · right
      apply le_roundedQuotient units
      have reached := first.reached
      have moved : magnitude = exponent + (52 : Nat) := by omega
      rw [moved, isBelow_add_iff, Nat.not_lt] at reached
      exact reached
    · exact .inl lowest

theorem isStored_ofQuotient (positive : 0 < numerator)
    (positiveBelow : 0 < denominator) :
    (ofQuotient negative numerator denominator).IsStored := by
  obtain ⟨short, lowest, full⟩ := scaled_bounds positiveBelow
    (isMagnitude_of_estimate positive positiveBelow rfl)
  unfold ofQuotient
  simp only at lowest short full ⊢
  generalize max _ (-1074 : Int) = exponent at lowest short full ⊢
  generalize scaled numerator denominator exponent = significand at short full ⊢
  by_cases carried : significand = Nat.pow 2 53
  · rw [if_pos carried]
    simp only
    split
    · trivial
    · exact ⟨by decide, by omega, by omega, .inr le_rfl⟩
  · rw [if_neg carried]
    simp only
    split
    · trivial
    · exact ⟨lt_of_le_of_ne short carried, lowest, by omega, full⟩

theorem isStored_zero : (zero negative).IsStored := by
  simp [zero, IsStored]

theorem isStored_ofDecimal (digits : Nat) (power : Int) :
    (ofDecimal negative digits power).IsStored := by
  rw [ofDecimal]
  split
  · exact isStored_zero
  · next nonzero =>
      have positive := Nat.pos_of_ne_zero nonzero
      simp only
      split
      · trivial
      · split
        · exact isStored_zero
        · split
          · exact isStored_ofQuotient
              (Nat.mul_pos positive (Nat.pow_pos (by decide))) Nat.one_pos
          · exact isStored_ofQuotient positive (Nat.pow_pos (by decide))

/-- Every decimal literal is read as a number in stored form. -/
theorem isStored_ofLiteral (literal : Text) : (ofLiteral literal).IsStored := by
  unfold ofLiteral
  split <;> exact isStored_ofDecimal _ _

end TemplateLint.Binary64
