import Mathlib.Data.List.Induction
import TemplateLint.Proofs.Correction.Pass

/-!
# Newlines after a pass

When nothing but newlines is left to change, one pass removes those that
exceed an empty line, and one more puts the end of the text right.
-/

namespace TemplateLint

open Text Script

/-- Nothing but newlines is changed. -/
structure Fixers.OnlyNewlines (fixers : Fixers) : Prop where
  rightTrim : fixers.rightTrim = none
  spaceAroundErbTag : fixers.spaceAroundErbTag = false
  spaceIndentation : fixers.spaceIndentation = none
  trailingWhitespace : fixers.trailingWhitespace = false

/-- Newlines are removed behind an empty line, removed at the end of the text
or added there. -/
theorem Fixers.OnlyNewlines.change_cases {fixers : Fixers}
    {front old new rest : Text} (only : fixers.OnlyNewlines)
    (change : Change fixers front old new rest) :
    (fixers.extraNewline = true ∧ new = [] ∧ ExtraNewline.Exceeds front old rest) ∨
    (fixers.finalNewline = some true ∧ old = [] ∧ new = ['\n'] ∧ rest = [] ∧
      FinalNewline.Lacks front) ∨
    ∃ present, fixers.finalNewline = some present ∧ new = [] ∧ rest = [] ∧
      FinalNewline.Unwanted present front old := by
  cases change with
  | trailing active _ =>
      rw [only.trailingWhitespace] at active
      contradiction
  | indent width active _ =>
      rw [only.spaceIndentation] at active
      contradiction
  | extra active exceeds => exact .inl ⟨active, rfl, exceeds⟩
  | missing active lacks => exact .inr (.inl ⟨active, rfl, rfl, rfl, lacks⟩)
  | unwanted present active unwanted =>
      exact .inr (.inr ⟨present, active, rfl, rfl, unwanted⟩)
  | space tag active _ =>
      rw [only.spaceAroundErbTag] at active
      contradiction
  | mark style tag active _ =>
      rw [only.rightTrim] at active
      contradiction

namespace Pass

variable {fixers : Fixers} {script : List Piece}

/-! ## Extra newlines -/

/-- Newlines at the end of a part after a pass were there before. -/
theorem newlines_of_after {earlier later : List Piece} {front run : Text}
    (pass : Pass fixers script) (only : fixers.OnlyNewlines)
    (split : script = earlier ++ later) (more : before later ≠ [])
    (same : after earlier = front ++ run) (newlines : ∀ c ∈ run, c = '\n') :
    ∃ front' run', before earlier = front' ++ run' ∧ (∀ c ∈ run', c = '\n') ∧
      run.length ≤ run'.length := by
  induction earlier using List.reverseRecOn generalizing later front run with
  | nil =>
      obtain ⟨-, rfl⟩ := List.append_eq_nil_iff.mp same.symm
      exact ⟨[], [], rfl, by simp, by simp⟩
  | append_singleton earlier piece induction =>
      rw [List.append_assoc, List.singleton_append] at split
      cases piece with
      | keep c =>
          simp only [after_append, after_keep, after_nil] at same
          simp only [before_append, before_keep, before_nil]
          obtain rfl | ⟨run, d, rfl⟩ := run.eq_nil_or_concat'
          · exact ⟨before earlier ++ [c], [], by simp, by simp, by simp⟩
          · rw [← List.append_assoc] at same
            obtain ⟨sameEarlier, last⟩ := List.append_inj' same rfl
            rw [List.singleton_inj] at last
            obtain ⟨front', run', earlierEq, runNewlines, long⟩ :=
              induction split (by simp) sameEarlier
                fun e member => newlines e (List.mem_append_left _ member)
            refine ⟨front', run' ++ [c], by rw [earlierEq, List.append_assoc], ?_, ?_⟩
            · intro e member
              rcases List.mem_append.mp member with inRun | here
              · exact runNewlines e inRun
              · rw [List.mem_singleton.mp here, last]
                exact newlines d (by simp)
            · simpa using long
      | swap old new =>
          have moreThere : before (.swap old new :: later) ≠ [] := by
            simp [more]
          simp only [after_append, after_swap, after_nil, List.append_nil] at same
          simp only [before_append, before_swap, before_nil, List.append_nil]
          rcases only.change_cases (pass.changes split) with
            ⟨-, rfl, exceeds⟩ | ⟨-, -, -, nothing, -⟩ | ⟨-, -, -, nothing, -⟩
          · rw [List.append_nil] at same
            obtain ⟨front', run', earlierEq, runNewlines, long⟩ :=
              induction split moreThere same newlines
            refine ⟨front', run' ++ old, by rw [earlierEq, List.append_assoc], ?_, ?_⟩
            · intro e member
              rcases List.mem_append.mp member with inRun | inOld
              · exact runNewlines e inRun
              · exact exceeds.newlines e inOld
            · rw [List.length_append]
              omega
          · exact absurd nothing more
          · exact absurd nothing more

/-- Another character than a newline that follows after a pass did so before,
up to newlines. -/
theorem other_of_after {earlier later : List Piece} {c : Char} {rest : Text}
    (pass : Pass fixers script) (only : fixers.OnlyNewlines)
    (split : script = earlier ++ later) (same : after later = c :: rest)
    (other : c ≠ '\n') :
    ∃ run rest', before later = run ++ c :: rest' ∧ ∀ d ∈ run, d = '\n' := by
  induction later generalizing earlier with
  | nil => contradiction
  | cons piece later induction =>
      have further : script = (earlier ++ [piece]) ++ later := by
        rw [split]
        simp
      cases piece with
      | keep d =>
          rw [after_keep, List.cons.injEq] at same
          exact ⟨[], before later, by rw [same.1]; rfl, by simp⟩
      | swap old new =>
          rcases only.change_cases (pass.changes split) with
            ⟨-, rfl, exceeds⟩ | ⟨-, -, rfl, -, -⟩ | ⟨-, -, rfl, nothing, -⟩
          · obtain ⟨run, rest', laterEq, newlines⟩ := induction further same
            refine ⟨old ++ run, rest', ?_, ?_⟩
            · rw [before_swap, laterEq, List.append_assoc]
            · intro e member
              rcases List.mem_append.mp member with inOld | inRun
              · exact exceeds.newlines e inOld
              · exact newlines e inRun
          · rw [after_swap, List.cons_append, List.cons.injEq] at same
            exact absurd same.1.symm other
          · obtain ⟨run, rest', laterEq, -⟩ := induction further same
            rw [laterEq] at nothing
            simp at nothing

/-- The last newlines of a text with at least two of them. -/
theorem exists_two_newlines {front run : Text} (newlines : ∀ c ∈ run, c = '\n')
    (long : 2 ≤ run.length) :
    ∃ earlier more, front ++ run = (earlier ++ ['\n', '\n']) ++ more ∧
      LastIs (· ≠ '\n') earlier ∧ ∀ c ∈ more, c = '\n' := by
  obtain ⟨earlier, whole, same, longest, wholeNewlines⟩ :=
    FinalNewline.exists_ends (front ++ run)
  have longer : run.length ≤ whole.length := by
    rcases List.append_eq_append_iff.mp same with
      ⟨middle, earlierEq, runEq⟩ | ⟨middle, -, wholeEq⟩
    · have nothing : middle = [] := by
        by_contra some_middle
        rw [earlierEq, lastIs_append_of_ne_nil some_middle] at longest
        apply some_middle
        apply ExtraNewline.eq_nil_of_newlines longest
        exact fun c member => newlines c (by rw [runEq]; simp [member])
      rw [runEq, nothing, List.nil_append]
    · rw [wholeEq, List.length_append]
      omega
  cases whole with
  | nil =>
      rw [List.length_nil] at longer
      omega
  | cons c whole =>
      cases whole with
      | nil =>
          rw [List.length_singleton] at longer
          omega
      | cons d more =>
          refine ⟨earlier, more, ?_, longest, ?_⟩
          · rw [same, wholeNewlines c (by simp), wholeNewlines d (by simp)]
            simp
          · exact fun e member => wholeNewlines e (by simp [member])

/-- No newlines exceed an empty line after a pass over newlines alone. -/
theorem not_exceeds_after {front old rest : Text} (pass : Pass fixers script)
    (only : fixers.OnlyNewlines) (active : fixers.extraNewline = true)
    (same : after script = front ++ old ++ rest) :
    ¬ExtraNewline.Exceeds front old rest := by
  intro exceeds
  obtain ⟨ahead, rfl, -⟩ := exceeds.behindTwo
  obtain ⟨c, rest, rfl, other⟩ := exceeds.followed
  obtain rfl | ⟨old, d, rfl⟩ := old.eq_nil_or_concat'
  · exact exceeds.inhabited rfl
  have newline : d = '\n' := exceeds.newlines d (by simp)
  subst newline
  have sameNewline : after script =
      (ahead ++ (['\n', '\n'] ++ old)) ++ '\n' :: (c :: rest) := by
    rw [same]
    simp
  rcases kept_or_new sameNewline with
    ⟨earlier, later, split, earlierEq, laterEq⟩ |
    ⟨earlier, old', begun, left, later, split, -, restEq⟩
  · have further : script = (earlier ++ [.keep '\n']) ++ later := by
      rw [split]
      simp
    obtain ⟨front', run, beforeEq, newlines, long⟩ :=
      pass.newlines_of_after only split (by simp) earlierEq
        (ExtraNewline.two_newlines_append fun e member =>
          exceeds.newlines e (List.mem_append_left _ member))
    obtain ⟨left, rest', laterEq, leftNewlines⟩ :=
      pass.other_of_after only further laterEq other
    rw [List.length_append, List.length_cons, List.length_singleton] at long
    obtain ⟨first, more, runEq, longest, moreNewlines⟩ :=
      @exists_two_newlines front' run newlines (by omega)
    rw [runEq] at beforeEq
    have own : ExtraNewline.Exceeds (first ++ ['\n', '\n']) (more ++ '\n' :: left)
        (c :: rest') := by
      refine ⟨⟨first, rfl, longest⟩, by simp, ?_, ⟨c, rest', rfl, other⟩⟩
      intro e member
      simp only [List.mem_append, List.mem_cons] at member
      rcases member with inMore | rfl | inLeft
      · exact moreNewlines e inMore
      · rfl
      · exact leftNewlines e inLeft
    exact pass.not_kept_of_newlines split beforeEq laterEq (.inl own)
      (.extra active own)
  · have further :
        script = (earlier ++ [.swap old' (begun ++ '\n' :: left)]) ++ later := by
      rw [split]
      simp
    rcases only.change_cases (pass.changes split) with
      ⟨-, new, -⟩ | ⟨-, -, new, nothing, -⟩ | ⟨-, -, new, -, -⟩
    · simp at new
    · have noLeft : left = [] := by
        have sizes := congrArg List.length new
        simp only [List.length_append, List.length_cons, List.length_nil] at sizes
        rw [← List.length_eq_zero_iff]
        omega
      rw [noLeft, List.nil_append] at restEq
      obtain ⟨run, rest', laterEq, -⟩ :=
        pass.other_of_after only further restEq.symm other
      rw [laterEq] at nothing
      simp at nothing
    · simp at new

/-! ## The end of the text -/

/-- Changes at the end of a text are not made one after the other. -/
theorem not_two_at_end {earlier later : List Piece} {old new new' : Text}
    (pass : Pass fixers script) (only : fixers.OnlyNewlines)
    (final : fixers.extraNewline = false) :
    script ≠ earlier ++ .swap old new :: .swap [] new' :: later := by
  intro split
  have further :
      script = (earlier ++ [.swap old new]) ++ .swap [] new' :: later := by
    rw [split]
    simp
  have other : LastIs (· ≠ '\n') (before earlier ++ old) := by
    rcases only.change_cases (pass.changes further) with
      ⟨active, -⟩ | ⟨-, -, -, -, lacks⟩ | ⟨present, -, -, -, unwanted⟩
    · rw [final] at active
      contradiction
    · simpa using lacks.other
    · exact absurd rfl unwanted.inhabited
  rcases only.change_cases (pass.changes split) with
    ⟨active, -⟩ | ⟨-, rfl, -⟩ | ⟨present, -, -, -, unwanted⟩
  · rw [final] at active
    contradiction
  · exact pass.apart split
  · rw [lastIs_append_of_ne_nil unwanted.inhabited] at other
    exact unwanted.inhabited
      (ExtraNewline.eq_nil_of_newlines other unwanted.newlines)

/-- A pass over the end of a text makes one change at most. -/
theorem exists_last {earlier later : List Piece} (pass : Pass fixers script)
    (only : fixers.OnlyNewlines) (final : fixers.extraNewline = false)
    (split : script = earlier ++ later) :
    (∃ text, later = keeping text) ∨
    ∃ front old new, later = keeping front ++ [.swap old new] := by
  induction later generalizing earlier with
  | nil => exact .inl ⟨[], rfl⟩
  | cons piece later induction =>
      have further : script = (earlier ++ [piece]) ++ later := by
        rw [split]
        simp
      cases piece with
      | keep c =>
          rcases induction further with ⟨text, rfl⟩ | ⟨front, old, new, rfl⟩
          · exact .inl ⟨c :: text, rfl⟩
          · exact .inr ⟨c :: front, old, new, rfl⟩
      | swap old new =>
          have nothing : before later = [] := by
            rcases only.change_cases (pass.changes split) with
              ⟨active, -⟩ | ⟨-, -, -, nothing, -⟩ | ⟨-, -, -, nothing, -⟩
            · rw [final] at active
              contradiction
            · exact nothing
            · exact nothing
          rcases induction further with ⟨text, rfl⟩ | ⟨front, old', new', rfl⟩
          · rw [before_keeping] at nothing
            exact .inr ⟨[], old, new, by rw [nothing]; rfl⟩
          · exfalso
            simp only [before_append, before_keeping, before_swap, before_nil,
              List.append_nil, List.append_eq_nil_iff] at nothing
            obtain ⟨rfl, rfl⟩ := nothing
            exact pass.not_two_at_end only final split

theorem not_lastIs_of_newlines {front run : Text} (some_run : run ≠ [])
    (newlines : ∀ c ∈ run, c = '\n') : ¬LastIs (· ≠ '\n') (front ++ run) := by
  intro other
  rw [lastIs_append_of_ne_nil some_run] at other
  exact some_run (ExtraNewline.eq_nil_of_newlines other newlines)

/-- More than one newline is left in front of the last one. -/
theorem not_lastIs_of_more {front earlier old : Text} (some_old : old ≠ [])
    (newlines : ∀ c ∈ old, c = '\n')
    (same : front ++ ['\n'] = (earlier ++ ['\n']) ++ old) :
    ¬LastIs (· ≠ '\n') front := by
  obtain rfl | ⟨old, c, rfl⟩ := old.eq_nil_or_concat'
  · exact absurd rfl some_old
  · rw [← List.append_assoc] at same
    obtain ⟨rfl, -⟩ := List.append_inj' same rfl
    rw [List.append_assoc]
    apply not_lastIs_of_newlines (by simp)
    intro d member
    rcases List.mem_append.mp member with here | inOld
    · exact List.mem_singleton.mp here
    · exact newlines d (List.mem_append_left _ inOld)

/-- The end of a text is right after a pass over it. -/
theorem not_change_after {front old new rest : Text} (pass : Pass fixers script)
    (only : fixers.OnlyNewlines) (final : fixers.extraNewline = false)
    (same : after script = front ++ old ++ rest) :
    ¬Change fixers front old new rest := by
  intro change
  rcases pass.exists_last only final (List.nil_append script).symm with
    ⟨text, rfl⟩ | ⟨kept, old', new', rfl⟩
  · have sameBefore : before (keeping text) = front ++ old ++ rest := by
      rw [before_keeping, ← same, after_keeping]
    obtain ⟨earlier, _, _, later, split, -⟩ := pass.complete sameBefore change
    exact not_swap_of_keeping split
  · have made := pass.changes rfl
    rw [before_keeping, before_nil] at made
    simp only [after_append, after_keeping, after_swap, after_nil,
      List.append_nil] at same
    rcases only.change_cases change with
      ⟨active, -⟩ | ⟨active, rfl, -, rfl, lacks⟩ |
      ⟨present, active, -, rfl, unwanted⟩
    · rw [final] at active
      contradiction
    · rw [List.append_nil, List.append_nil] at same
      subst same
      rcases only.change_cases made with
        ⟨extra, -⟩ | ⟨-, -, rfl, -, -⟩ | ⟨present, own, rfl, -, unwanted⟩
      · rw [final] at extra
        contradiction
      · exact absurd rfl (lastIs_concat.mp lacks.other)
      · rw [active] at own
        cases own
        obtain ⟨earlier, rfl, -⟩ := unwanted.kept
        rw [List.append_nil] at lacks
        exact absurd rfl (lastIs_concat.mp lacks.other)
    · rw [List.append_nil] at same
      rcases only.change_cases made with
        ⟨extra, -⟩ | ⟨own, -, rfl, -, lacks⟩ | ⟨present', own, rfl, -, unwanted'⟩
      · rw [final] at extra
        contradiction
      · rw [active] at own
        cases own
        obtain ⟨earlier, rfl, -⟩ := unwanted.kept
        exact not_lastIs_of_more unwanted.inhabited unwanted.newlines same
          lacks.other
      · rw [List.append_nil] at same
        subst same
        rw [active] at own
        cases own
        have kept := unwanted.kept
        have keptBefore := unwanted'.kept
        cases present with
        | false =>
            rw [if_neg Bool.false_ne_true] at keptBefore
            exact not_lastIs_of_newlines unwanted.inhabited unwanted.newlines
              keptBefore
        | true =>
            rw [if_pos rfl] at kept keptBefore
            obtain ⟨earlier, rfl, -⟩ := kept
            obtain ⟨ahead, whole, longest⟩ := keptBefore
            exact not_lastIs_of_more unwanted.inhabited unwanted.newlines
              whole.symm longest

end Pass

end TemplateLint
