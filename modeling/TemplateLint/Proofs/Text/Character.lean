import TemplateLint.Text.Character

/-!
# Classes without a common character

The boundaries of a class are the ends of ranges of code points, two by two.
Two classes whose ranges lie beside each other have no character in common.
-/

namespace TemplateLint.Character

/-- The ranges of a class, each from its first code point to the one behind
its last. -/
def ranges : List Nat → List (Nat × Nat)
  | first :: behind :: later => (first, behind) :: ranges later
  | _ => []

/-- Whether no range of one class meets a range of the other. -/
def areApart (boundaries others : List Nat) : Bool :=
  (ranges boundaries).all fun range =>
    (ranges others).all fun other =>
      range.2.ble other.1 || other.2.ble range.1

variable {boundaries others : List Nat} {code : Nat}

theorem exists_range (even : boundaries.length % 2 = 0)
    (inside : within boundaries code = true) :
    ∃ range ∈ ranges boundaries, range.1 ≤ code ∧ code < range.2 := by
  fun_induction ranges boundaries with
  | case1 first behind later induction =>
      simp only [within, within.go] at inside
      split at inside
      next reached =>
        split at inside
        next passed =>
          have evenLater : later.length % 2 = 0 := by
            rw [List.length_cons, List.length_cons] at even
            omega
          obtain ⟨range, member, bounds⟩ := induction evenLater inside
          exact ⟨range, .tail _ member, bounds⟩
        next notPassed =>
          exact ⟨_, .head _, reached, Nat.lt_of_not_le notPassed⟩
      next => contradiction
  | case2 boundaries single =>
      match boundaries, even, inside with
      | [], _, inside => simp [within, within.go] at inside
      | [_], even, _ => simp at even
      | first :: behind :: later, _, _ => exact absurd rfl (single _ _ _)

theorem not_within_of_areApart (apart : areApart boundaries others = true)
    (even : boundaries.length % 2 = 0) (evenToo : others.length % 2 = 0)
    (inside : within boundaries code = true) : within others code = false := by
  refine Bool.eq_false_iff.mpr fun insideToo => ?_
  obtain ⟨range, member, reached, notPassed⟩ := exists_range even inside
  obtain ⟨other, memberToo, reachedToo, notPassedToo⟩ :=
    exists_range evenToo insideToo
  have beside := List.all_eq_true.mp (List.all_eq_true.mp apart range member)
    other memberToo
  simp only [Bool.or_eq_true, Nat.ble_eq] at beside
  omega

end TemplateLint.Character
