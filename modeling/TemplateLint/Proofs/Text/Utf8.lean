import TemplateLint.Text.Utf8

/-!
# Encoded texts are read back

The decoder reads the encoding of a character as that character, from
whatever position and whatever bytes follow.  So decoding undoes encoding, and
two texts with one encoding are the same.
-/

namespace TemplateLint.Utf8

theorem byte_toNat {value : Nat} (small : value < 256) :
    (byte value).toNat = value := by
  simp [byte, Nat.mod_eq_of_lt small]

/-- A character is no surrogate. -/
theorem char_toNat_bounds (c : Char) :
    c.toNat < 0xD800 ∨ 0xDFFF < c.toNat ∧ c.toNat < 0x110000 :=
  c.valid

/-! ## Single bytes -/

theorem decodeFrom_single {value : Nat} (ascii : value < 0x80)
    (position : Nat) (rest : Bytes) :
    decodeFrom position none (byte value :: rest) =
      (decodeFrom (position + 1) none rest).map (Char.ofNat value :: ·) := by
  rw [decodeFrom, byte_toNat (by omega), if_pos ascii]

theorem decodeFrom_first {value position : Nat} {pending : Pending}
    (small : value < 256) (begun : begins? position value = some pending)
    (rest : Bytes) :
    decodeFrom position none (byte value :: rest) =
      decodeFrom (position + 1) (some pending) rest := by
  have notAscii : ¬value < 0x80 := by
    intro ascii
    rw [begins?, if_neg (by omega), if_neg (by omega), if_neg (by omega)]
      at begun
    contradiction
  rw [decodeFrom, byte_toNat small, if_neg notAscii, begun]

theorem decodeFrom_inner {pending : Pending} {value : Nat}
    (low : pending.low ≤ value) (high : value ≤ pending.high)
    (small : value < 256) (more : pending.missing ≠ 1 ∧ pending.missing ≠ 0)
    (position : Nat) (rest : Bytes) :
    decodeFrom position (some pending) (byte value :: rest) =
      decodeFrom (position + 1) (some (pending.accept value)) rest := by
  have unfinished : (pending.accept value).missing ≠ 0 := by
    simp only [Pending.accept]
    omega
  rw [decodeFrom, byte_toNat small, if_pos ⟨low, high⟩]
  exact if_neg unfinished

theorem decodeFrom_last {pending : Pending} {value : Nat}
    (low : pending.low ≤ value) (high : value ≤ pending.high)
    (small : value < 256) (last : pending.missing = 1)
    (position : Nat) (rest : Bytes) :
    decodeFrom position (some pending) (byte value :: rest) =
      (decodeFrom (position + 1) none rest).map
        (Char.ofNat (pending.value * 64 + value % 64) :: ·) := by
  have finished : (pending.accept value).missing = 0 := by
    simp [Pending.accept, last]
  rw [decodeFrom, byte_toNat small, if_pos ⟨low, high⟩]
  exact if_pos finished

/-! ## Characters and texts -/

/-- The encoding of a character is read as that character. -/
theorem decodeFrom_encodeChar (position : Nat) (c : Char) (rest : Bytes) :
    decodeFrom position none (encodeChar c ++ rest) =
      (decodeFrom (position + (encodeChar c).length) none rest).map
        (c :: ·) := by
  have bounds := char_toNat_bounds c
  have restored : Char.ofNat c.toNat = c := Char.ofNat_toNat c
  by_cases one : c.toNat < 0x80
  · simp only [encodeChar, if_pos one, List.cons_append, List.nil_append,
      List.length_cons, List.length_nil]
    rw [decodeFrom_single one, restored]
  by_cases two : c.toNat < 0x800
  · have begun : begins? position (0xC0 + c.toNat / 64) =
        some ⟨position, 0xC0 + c.toNat / 64, 1, 0x80, 0xBF, c.toNat / 64⟩ := by
      rw [begins?, if_pos (by omega)]
      simp
    have joined : c.toNat / 64 * 64 + (0x80 + c.toNat % 64) % 64 = c.toNat := by
      omega
    simp only [encodeChar, if_neg one, if_pos two, List.cons_append,
      List.nil_append, List.length_cons, List.length_nil]
    rw [decodeFrom_first (by omega) begun,
      decodeFrom_last (by simp) (by simp; omega) (by omega) rfl]
    simp only [joined, restored]
  by_cases three : c.toNat < 0x10000
  · have begun : begins? position (0xE0 + c.toNat / 4096) =
        some ⟨position, 0xE0 + c.toNat / 4096, 2,
          if 0xE0 + c.toNat / 4096 = 0xE0 then 0xA0 else 0x80,
          if 0xE0 + c.toNat / 4096 = 0xED then 0x9F else 0xBF,
          c.toNat / 4096⟩ := by
      rw [begins?, if_neg (by omega), if_pos (by omega)]
      simp
    have joined : (c.toNat / 4096 * 64 + (0x80 + c.toNat / 64 % 64) % 64) * 64
        + (0x80 + c.toNat % 64) % 64 = c.toNat := by
      omega
    simp only [encodeChar, if_neg one, if_neg two, if_pos three,
      List.cons_append, List.nil_append, List.length_cons, List.length_nil]
    rw [decodeFrom_first (by omega) begun,
      decodeFrom_inner (by dsimp only; split <;> omega)
        (by dsimp only; split <;> omega) (by omega) (by simp),
      decodeFrom_last (by simp [Pending.accept])
        (by simp [Pending.accept]; omega) (by omega) rfl]
    simp only [Pending.accept, joined, restored]
  · have begun : begins? position (0xF0 + c.toNat / 262144) =
        some ⟨position, 0xF0 + c.toNat / 262144, 3,
          if 0xF0 + c.toNat / 262144 = 0xF0 then 0x90 else 0x80,
          if 0xF0 + c.toNat / 262144 = 0xF4 then 0x8F else 0xBF,
          c.toNat / 262144⟩ := by
      rw [begins?, if_neg (by omega), if_neg (by omega), if_pos (by omega)]
      simp
    have joined : ((c.toNat / 262144 * 64 + (0x80 + c.toNat / 4096 % 64) % 64)
        * 64 + (0x80 + c.toNat / 64 % 64) % 64) * 64
        + (0x80 + c.toNat % 64) % 64 = c.toNat := by
      omega
    simp only [encodeChar, if_neg one, if_neg two, if_neg three,
      List.cons_append, List.nil_append, List.length_cons, List.length_nil]
    rw [decodeFrom_first (by omega) begun,
      decodeFrom_inner (by dsimp only; split <;> omega)
        (by dsimp only; split <;> omega) (by omega) (by simp),
      decodeFrom_inner (by simp [Pending.accept])
        (by simp [Pending.accept]; omega) (by omega) (by simp [Pending.accept]),
      decodeFrom_last (by simp [Pending.accept])
        (by simp [Pending.accept]; omega) (by omega) rfl]
    simp only [Pending.accept, joined, restored]

theorem decodeFrom_encode (position : Nat) (text : Text) :
    decodeFrom position none (encode text) = .ok text := by
  induction text generalizing position with
  | nil => rfl
  | cons c rest induction =>
      rw [encode, List.flatMap_cons, decodeFrom_encodeChar]
      have later := induction (position + (encodeChar c).length)
      rw [encode] at later
      rw [later]
      rfl

/-- Decoding undoes encoding. -/
theorem decode_encode (text : Text) : decode (encode text) = .ok text :=
  decodeFrom_encode 0 text

end TemplateLint.Utf8
