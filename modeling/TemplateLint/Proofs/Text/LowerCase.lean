import TemplateLint.Text.LowerCase

/-!
# Lower case is final

No small letter has a small letter of its own, and none becomes another one
by its neighbours.  So lower-casing a text twice changes no more than doing
it once.
-/

namespace TemplateLint.LowerCase

/-! ## The table -/

/-- The code point of a run's small letter. -/
def Run.small (run : Run) (code : Nat) : Nat := (code + run.distance).toNat

/-- The small letters of a run are characters, and none of them is the dotted
capital I. -/
def Run.staysInside (run : Run) : Bool :=
  0 ≤ run.first + run.distance
    && (run.small run.last < 304 || 304 < run.small run.first)
    && (run.small run.last < 0xD800
      || 0xE000 ≤ run.small run.first && run.small run.last < 0x110000)

/-- No small letter of one run is a capital of the other: they lie beside
each other, or take turns. -/
def Run.apart (run capitals : Run) : Bool :=
  (run.small run.last).blt capitals.first
    || capitals.last.blt (run.small run.first)
    || ((run.first == run.last || run.step == 2) && capitals.step == 2
      && (run.small run.first + capitals.first) % 2 == 1)

theorem staysInside_of_mem {run : Run} (member : run ∈ runs) :
    run.staysInside = true := by
  have all : runs.all Run.staysInside = true := by decide +kernel
  exact List.all_eq_true.mp all run member

theorem apart_of_mem {run capitals : Run} (member : run ∈ runs)
    (memberToo : capitals ∈ runs) : run.apart capitals = true := by
  have all : (runs.all fun run => runs.all run.apart) = true := by
    decide +kernel
  exact List.all_eq_true.mp (List.all_eq_true.mp all run member) capitals
    memberToo

theorem Run.covers_iff {run : Run} {code : Nat} :
    run.covers code = true ↔
      run.first ≤ code ∧ code ≤ run.last ∧
        (code - run.first) % run.step = 0 := by
  simp [covers, and_assoc]

/-- A code point that lower-casing does not touch. -/
def IsSettled (code : Nat) : Prop :=
  code ≠ 304 ∧ ∀ run ∈ runs, run.covers code = false

theorem isSettled_small {run : Run} {code : Nat} (member : run ∈ runs)
    (covered : run.covers code = true) :
    (run.small code).isValidChar ∧ IsSettled (run.small code) := by
  have inside := staysInside_of_mem member
  simp only [Run.staysInside, Bool.and_eq_true, Bool.or_eq_true,
    decide_eq_true_eq] at inside
  rw [Run.covers_iff] at covered
  simp only [Run.small] at inside ⊢
  refine ⟨?_, ?_, ?_⟩
  · rw [Nat.isValidChar]
    omega
  · omega
  · intro capitals memberToo
    have apart := apart_of_mem member memberToo
    simp only [Run.apart, Run.small, Bool.and_eq_true, Bool.or_eq_true,
      Nat.blt_eq, beq_iff_eq] at apart
    refine Bool.eq_false_iff.mpr fun meets => ?_
    rw [Run.covers_iff] at meets
    rcases apart with beside | ⟨⟨single | turns, everySecond⟩, odd⟩
    · omega
    · rw [everySecond] at meets
      omega
    · rw [turns] at covered
      rw [everySecond] at meets
      omega

/-! ## Characters -/

theorem toNat_ofNat {code : Nat} (valid : code.isValidChar) :
    (Char.ofNat code).toNat = code := by
  rw [Char.ofNat, dif_pos valid]
  rfl

theorem letter_eq_self {c : Char} (settled : IsSettled c.toNat) :
    letter c = c := by
  have none : runs.find? (·.covers c.toNat) = none := by
    simpa using settled.2
  rw [letter, none]

theorem isSettled_letter {c : Char} (other : c ≠ 'İ') :
    IsSettled (letter c).toNat := by
  rw [letter]
  split
  · rename_i run found
    have covered := List.find?_some found
    obtain ⟨valid, settled⟩ :=
      isSettled_small (List.mem_of_find?_eq_some found) covered
    exact (toNat_ofNat valid).symm ▸ settled
  · rename_i none
    refine ⟨?_, by simpa using none⟩
    intro dotted
    exact other (Char.toNat_inj.mp dotted)

theorem not_isSettled_of_covers {run : Run} {code : Nat} (member : run ∈ runs)
    (covered : run.covers code = true) : ¬IsSettled code := by
  intro settled
  rw [settled.2 run member] at covered
  contradiction

theorem inContext_eq_self {c : Char} (settled : IsSettled c.toNat)
    (before after : List Char) : inContext before c after = [c] := by
  have noSigma : c ≠ 'Σ' := by
    rintro rfl
    have covered : (runs.any (·.covers 'Σ'.toNat)) = true := by decide +kernel
    obtain ⟨run, member, covers⟩ := List.any_eq_true.mp covered
    exact not_isSettled_of_covers member covers settled
  have noDot : c ≠ 'İ' := by
    rintro rfl
    exact settled.1 rfl
  rw [inContext, if_neg noSigma, if_neg noDot, letter_eq_self settled]

theorem isSettled_of_mem_inContext {before after : List Char} {c small : Char}
    (member : small ∈ inContext before c after) : IsSettled small.toNat := by
  have known : ∀ small ∈ ['ς', 'σ', 'i', Char.ofNat 0x307],
      IsSettled small.toNat := by
    simp only [List.forall_mem_cons, List.not_mem_nil, false_implies,
      implies_true, and_true, IsSettled]
    decide +kernel
  rw [inContext] at member
  split at member
  · apply known
    split at member <;> simp_all
  · split at member
    · apply known
      simp_all
    · rename_i noDot
      rw [List.mem_singleton.mp member]
      exact isSettled_letter noDot

/-! ## Texts -/

theorem isSettled_of_mem_lower {text : List Char} {small : Char}
    (member : small ∈ lower text) : IsSettled small.toNat := by
  suffices anywhere : ∀ before, small ∈ lowerFrom before text →
      IsSettled small.toNat from anywhere [] member
  clear member
  induction text with
  | nil => simp [lowerFrom]
  | cons c after induction =>
      intro before member
      rw [lowerFrom, List.mem_append] at member
      rcases member with here | later
      · exact isSettled_of_mem_inContext here
      · exact induction _ later

theorem lower_eq_self {text : List Char}
    (settled : ∀ c ∈ text, IsSettled c.toNat) : lower text = text := by
  suffices anywhere : ∀ before, lowerFrom before text = text from anywhere []
  induction text with
  | nil => exact fun _ => rfl
  | cons c after induction =>
      intro before
      rw [List.forall_mem_cons] at settled
      rw [lowerFrom, inContext_eq_self settled.1, induction settled.2]
      rfl

theorem lower_lower (text : List Char) : lower (lower text) = lower text :=
  lower_eq_self fun _ => isSettled_of_mem_lower

end TemplateLint.LowerCase
