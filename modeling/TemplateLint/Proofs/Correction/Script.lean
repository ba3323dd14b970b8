import TemplateLint.Correction

/-!
# Corrections as edit scripts

Corrections that do not conflict can be made at once.  A script goes through a
text from left to right and says of each part whether it is kept or what
replaces it; making the corrections from the end of the text backwards gives
the text after the script.
-/

namespace TemplateLint

/-- A character that stays, or a part of a text with its replacement. -/
inductive Piece where
  | keep (c : Char)
  | swap (old new : Text)

namespace Script

/-- The text that a script goes through. -/
def before : List Piece → Text
  | [] => []
  | .keep c :: later => c :: before later
  | .swap old _ :: later => old ++ before later

/-- The text that a script leaves. -/
def after : List Piece → Text
  | [] => []
  | .keep c :: later => c :: after later
  | .swap _ new :: later => new ++ after later

/-- The corrections that a script makes from a position on. -/
def made (position : Nat) : List Piece → List Correction
  | [] => []
  | .keep _ :: later => made (position + 1) later
  | .swap old new :: later =>
      ⟨position, (position + old.length : Nat), new⟩ ::
        made (position + old.length) later

/-- The script that changes nothing. -/
def keeping (text : Text) : List Piece := text.map .keep

@[simp] theorem before_nil : before [] = [] := rfl

@[simp] theorem before_keep (c : Char) (later : List Piece) :
    before (.keep c :: later) = c :: before later := rfl

@[simp] theorem before_swap (old new : Text) (later : List Piece) :
    before (.swap old new :: later) = old ++ before later := rfl

@[simp] theorem after_nil : after [] = [] := rfl

@[simp] theorem after_keep (c : Char) (later : List Piece) :
    after (.keep c :: later) = c :: after later := rfl

@[simp] theorem after_swap (old new : Text) (later : List Piece) :
    after (.swap old new :: later) = new ++ after later := rfl

@[simp] theorem before_append (earlier later : List Piece) :
    before (earlier ++ later) = before earlier ++ before later := by
  induction earlier with
  | nil => rfl
  | cons piece earlier induction => cases piece <;> simp [induction]

@[simp] theorem after_append (earlier later : List Piece) :
    after (earlier ++ later) = after earlier ++ after later := by
  induction earlier with
  | nil => rfl
  | cons piece earlier induction => cases piece <;> simp [induction]

@[simp] theorem before_keeping (text : Text) : before (keeping text) = text := by
  induction text with
  | nil => rfl
  | cons c text induction => simpa [keeping] using induction

@[simp] theorem after_keeping (text : Text) : after (keeping text) = text := by
  induction text with
  | nil => rfl
  | cons c text induction => simpa [keeping] using induction

@[simp] theorem made_keeping (position : Nat) (text : Text)
    (later : List Piece) :
    made position (keeping text ++ later) =
      made (position + text.length) later := by
  induction text generalizing position with
  | nil => rfl
  | cons c text induction =>
      have rest := induction (position + 1)
      simp only [keeping, List.map_cons, List.cons_append, made] at rest ⊢
      rw [rest, List.length_cons]
      congr 1
      omega

/-- Nothing is corrected where everything is kept. -/
theorem made_only_keeping (position : Nat) (text : Text) :
    made position (keeping text) = [] := by
  simpa [made] using made_keeping position text []

theorem made_append (position : Nat) (earlier later : List Piece) :
    made position (earlier ++ later) =
      made position earlier ++
        made (position + (before earlier).length) later := by
  induction earlier generalizing position with
  | nil => rfl
  | cons piece earlier induction =>
      cases piece with
      | keep c =>
          simp only [List.cons_append, made, induction, before_keep,
            List.length_cons]
          congr 2
          omega
      | swap old new =>
          simp only [List.cons_append, made, induction, before_swap,
            List.length_append]
          congr 3
          omega

/-- A correction is made by a piece of the script. -/
theorem mem_made_iff {position : Nat} {script : List Piece}
    {correction : Correction} :
    correction ∈ made position script ↔
      ∃ earlier old new later, script = earlier ++ .swap old new :: later ∧
        correction =
          ⟨(position + (before earlier).length : Nat),
            (position + (before earlier).length + old.length : Nat), new⟩ := by
  constructor
  · intro member
    induction script generalizing position with
    | nil => simp [made] at member
    | cons piece script induction =>
        cases piece with
        | keep c =>
            obtain ⟨earlier, old, new, later, rfl, rfl⟩ := induction member
            refine ⟨.keep c :: earlier, old, new, later, rfl, ?_⟩
            simp only [before_keep, List.length_cons]
            congr 2 <;> omega
        | swap old new =>
            rcases List.mem_cons.mp member with rfl | inLater
            · exact ⟨[], old, new, script, rfl, by simp⟩
            · obtain ⟨earlier, later, rest⟩ := induction inLater
              obtain ⟨further, last, rfl, rfl⟩ := rest
              refine ⟨.swap old new :: earlier, later, further, last, rfl, ?_⟩
              simp only [before_swap, List.length_append]
              congr 2 <;> omega
  · rintro ⟨earlier, old, new, later, rfl, rfl⟩
    simp [made_append, made]

/-- What goes through nothing is a swap. -/
theorem eq_swap_of_before_eq_nil {piece : Piece} (nothing : before [piece] = []) :
    ∃ new, piece = .swap [] new := by
  cases piece with
  | keep c => simp at nothing
  | swap old new =>
      rw [before_swap, before_nil, List.append_nil] at nothing
      exact ⟨new, by rw [nothing]⟩

/-- A script without swaps keeps everything. -/
theorem eq_keeping {script : List Piece}
    (keeps : ∀ earlier old new later, script ≠ earlier ++ .swap old new :: later) :
    script = keeping (before script) := by
  induction script with
  | nil => rfl
  | cons piece script induction =>
      cases piece with
      | keep c =>
          have rest := induction fun earlier old new later same =>
            keeps (.keep c :: earlier) old new later (by rw [same]; rfl)
          exact congrArg (Piece.keep c :: ·) rest
      | swap old new => exact absurd rfl (keeps [] old new script)

theorem not_swap_of_keeping {text old new : Text} {earlier later : List Piece} :
    keeping text ≠ earlier ++ .swap old new :: later := by
  intro same
  have member : Piece.swap old new ∈ keeping text := by simp [same]
  simp [keeping] at member

/-- A swap lies in front of what is kept or behind it. -/
theorem swap_of_keeping {earlier later ahead rest : List Piece}
    {text old new : Text}
    (same : earlier ++ (keeping text ++ later) = ahead ++ .swap old new :: rest) :
    (∃ middle, earlier = ahead ++ .swap old new :: middle) ∨
    ∃ middle, ahead = earlier ++ (keeping text ++ middle) ∧
      later = middle ++ .swap old new :: rest := by
  rcases List.append_eq_append_iff.mp same with
    ⟨middle, aheadEq, restEq⟩ | ⟨middle, earlierEq, restEq⟩
  · right
    rcases List.append_eq_append_iff.mp restEq with
      ⟨inner, middleEq, laterEq⟩ | ⟨inner, keepingEq, laterEq⟩
    · exact ⟨inner, by rw [aheadEq, middleEq], laterEq⟩
    · cases inner with
      | nil =>
          rw [List.append_nil] at keepingEq
          exact ⟨[], by rw [aheadEq, keepingEq, List.append_nil], laterEq.symm⟩
      | cons piece inner =>
          rw [List.cons_append, List.cons.injEq] at laterEq
          rw [← laterEq.1] at keepingEq
          exact absurd keepingEq not_swap_of_keeping
  · cases middle with
    | nil =>
        rw [List.nil_append] at restEq
        rw [List.append_nil] at earlierEq
        cases text with
        | nil => exact .inr ⟨[], by rw [earlierEq]; simp [keeping], restEq.symm⟩
        | cons c text => simp [keeping] at restEq
    | cons piece middle =>
        rw [List.cons_append, List.cons.injEq] at restEq
        exact .inl ⟨middle, by rw [earlierEq, restEq.1]⟩

end Script

namespace Correction

open Script

theorem apply_inside {front old rest replacement : Text} :
    apply (front ++ old ++ rest)
        ⟨front.length, (front.length + old.length : Nat), replacement⟩ =
      front ++ replacement ++ rest := by
  have place : ∀ size position : Nat, position ≤ size →
      Text.place size (position : Int) = position := by
    intro size position within
    simp only [Text.place]
    split
    · omega
    · rw [Int.toNat_natCast, Nat.min_eq_left within]
  simp only [apply, Text.upTo, Text.since]
  rw [place _ _ (by simp), place _ _ (by simp)]
  simp

/-- A correction lies inside the first characters of a text. -/
def Within (size : Nat) (correction : Correction) : Prop :=
  0 ≤ correction.beginPos ∧ correction.beginPos ≤ correction.endPos ∧
    correction.endPos ≤ size

/-- The parts of a text before, inside and behind a correction. -/
theorem Within.exists_parts {text : Text} {correction : Correction}
    (within : correction.Within text.length) :
    ∃ front old rest replacement, text = front ++ old ++ rest ∧
      correction =
        ⟨front.length, (front.length + old.length : Nat), replacement⟩ := by
  obtain ⟨nonnegative, ascending, inside⟩ := within
  obtain ⟨first, firstEq⟩ := Int.eq_ofNat_of_zero_le nonnegative
  obtain ⟨size, sizeEq⟩ := Int.eq_ofNat_of_zero_le
    (show 0 ≤ correction.endPos - correction.beginPos by omega)
  have frontSize : (text.take first).length = first := by
    rw [List.length_take]
    omega
  have oldSize : ((text.drop first).take size).length = size := by
    rw [List.length_take, List.length_drop]
    omega
  refine ⟨text.take first, (text.drop first).take size,
    (text.drop first).drop size, correction.replacement, ?_, ?_⟩
  · rw [List.append_assoc, List.take_append_drop, List.take_append_drop]
  · rw [frontSize, oldSize]
    cases correction
    simp_all
    omega

/-- Corrections one behind the other, the last one first, are made by a
script. -/
theorem exists_script_of_descending (corrections : List Correction)
    (front : Text) (script : List Piece)
    (descending : corrections.Pairwise fun later earlier =>
      earlier.endPos ≤ later.beginPos)
    (within : ∀ correction ∈ corrections, correction.Within front.length) :
    ∃ result, before result = front ++ before script ∧
      after result = corrections.foldl apply (front ++ after script) ∧
      made 0 result = corrections.reverse ++ made front.length script := by
  induction corrections generalizing front script with
  | nil =>
      exact ⟨keeping front ++ script, by simp, by simp, by simp⟩
  | cons correction corrections induction =>
      obtain ⟨first, old, rest, new, rfl, rfl⟩ :=
        (within correction (.head _)).exists_parts
      rw [List.pairwise_cons] at descending
      have withinFirst : ∀ earlier ∈ corrections,
          earlier.Within first.length := by
        intro earlier member
        obtain ⟨nonnegative, ascending, -⟩ := within earlier (.tail _ member)
        exact ⟨nonnegative, ascending, descending.1 earlier member⟩
      obtain ⟨result, goesThrough, leaves, makes⟩ :=
        induction first (.swap old new :: (keeping rest ++ script))
          descending.2 withinFirst
      refine ⟨result, by simpa using goesThrough, ?_, ?_⟩
      · rw [leaves, List.foldl_cons, List.append_assoc (first ++ old),
          apply_inside]
        simp
      · rw [makes, List.reverse_cons, made, made_keeping]
        simp [Nat.add_assoc]

theorem overlaps_comm (first second : Correction) :
    first.overlaps second = second.overlaps first := by
  apply Bool.eq_iff_iff.mpr
  simp only [overlaps, Bool.or_eq_true, Bool.and_eq_true, decide_eq_true_eq]
  omega

/-- Corrections that do not conflict are made by a script. -/
theorem exists_script_applyAll {text : Text} {corrections : List Correction}
    (within : ∀ correction ∈ corrections, correction.Within text.length)
    (apart : corrections.Pairwise fun first second =>
      first.overlaps second = false) :
    ∃ script, before script = text ∧
      after script = applyAll text corrections ∧
      (made 0 script).Perm corrections ∧
      (made 0 script).Pairwise fun first second =>
        first.overlaps second = false := by
  have sorted : (ordered corrections).Perm corrections :=
    List.mergeSort_perm corrections precedes
  have apartSorted : (ordered corrections).Pairwise fun first second =>
      first.overlaps second = false :=
    apart.perm sorted.symm fun overlap => by rwa [overlaps_comm]
  have descends : (ordered corrections).Pairwise fun first second =>
      precedes first second = true := by
    apply List.pairwise_mergeSort
    · intro first second third
      simp only [precedes, Bool.or_eq_true, Bool.and_eq_true, decide_eq_true_eq]
      omega
    · intro first second
      simp only [precedes, Bool.or_eq_true, Bool.and_eq_true, decide_eq_true_eq]
      omega
  have descending : (ordered corrections).Pairwise fun later earlier =>
      earlier.endPos ≤ later.beginPos := by
    apply (descends.and apartSorted).imp_of_mem
    intro later earlier laterMember earlierMember both
    have laterWithin := within later (sorted.mem_iff.mp laterMember)
    have earlierWithin := within earlier (sorted.mem_iff.mp earlierMember)
    obtain ⟨order, separate⟩ := both
    simp only [precedes, overlaps, Within, Bool.or_eq_true, Bool.and_eq_true,
      Bool.or_eq_false_iff, Bool.and_eq_false_iff, decide_eq_true_eq,
      decide_eq_false_iff_not] at *
    omega
  obtain ⟨script, goesThrough, leaves, makes⟩ :=
    exists_script_of_descending (ordered corrections) text [] descending
      fun correction member => within correction (sorted.mem_iff.mp member)
  simp only [before_nil, after_nil, List.append_nil] at goesThrough leaves
  rw [made, List.append_nil] at makes
  refine ⟨script, goesThrough, leaves, ?_, ?_⟩
  · rw [makes]
    exact (List.reverse_perm _).trans sorted
  · rw [makes, List.pairwise_reverse]
    apply apartSorted.imp
    intro first second separate
    rwa [overlaps_comm]

end Correction

end TemplateLint
