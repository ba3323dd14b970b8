import TemplateLint.Linter.Newlines
import TemplateLint.Proofs.Text.Lines

/-!
# What the checks of newlines find

A run of newlines before another character is found from its third newline on.
At the end of a text, a missing newline is found, and so are the newlines that
are not wanted there.
-/

namespace TemplateLint

open Text

namespace ExtraNewline

/-- Newlines between two parts of a text exceed a run of two, and another
character follows. -/
structure Exceeds (front old rest : Text) : Prop where
  behindTwo : ∃ earlier, front = earlier ++ ['\n', '\n'] ∧
    LastIs (· ≠ '\n') earlier
  inhabited : old ≠ []
  newlines : ∀ c ∈ old, c = '\n'
  followed : ∃ c later, rest = c :: later ∧ c ≠ '\n'

def message : Text := "Extra blank line detected."

theorem eq_nil_of_newlines {text : Text} (longest : LastIs (· ≠ '\n') text)
    (newlines : ∀ c ∈ text, c = '\n') : text = [] := by
  obtain rfl | ⟨front, c, rfl⟩ := text.eq_nil_or_concat'
  · rfl
  · rw [lastIs_concat] at longest
    exact absurd (newlines c (by simp)) longest

/-- Two ways to divide a text into newlines and what follows them are the
same. -/
theorem newlines_eq_of_append_eq {first second firstRest secondRest : Text}
    (same : first ++ firstRest = second ++ secondRest)
    (firstNewlines : ∀ c ∈ first, c = '\n')
    (secondNewlines : ∀ c ∈ second, c = '\n')
    (firstOther : FirstIs (· ≠ '\n') firstRest)
    (secondOther : FirstIs (· ≠ '\n') secondRest) :
    first = second ∧ firstRest = secondRest := by
  have runs := congrArg (List.takeWhile fun c => decide (c = '\n')) same
  rw [takeWhile_append (by simpa using firstNewlines)
      (fun c member => by simpa using firstOther c member),
    takeWhile_append (by simpa using secondNewlines)
      (fun c member => by simpa using secondOther c member)] at runs
  subst runs
  exact ⟨rfl, List.append_cancel_left same⟩

/-- A run of newlines before another character is a run of the text itself, or
the text has its runs behind that character. -/
theorem run_eq_of_append_eq {run text earlier own rest : Text} {c : Char}
    (same : run ++ c :: text = earlier ++ (own ++ rest))
    (other : c ≠ '\n') (newlines : ∀ c ∈ run, c = '\n')
    (ownNewlines : ∀ c ∈ own, c = '\n')
    (longest : LastIs (· ≠ '\n') earlier)
    (followed : FirstIs (· ≠ '\n') rest) :
    (earlier = [] ∧ own = run ∧ rest = c :: text) ∨
      ∃ later, earlier = run ++ c :: later ∧ text = later ++ (own ++ rest) := by
  rcases List.append_eq_append_iff.mp same with
    ⟨middle, earlierEq, restEq⟩ | ⟨middle, runEq, -⟩
  · cases middle with
    | cons d middle =>
        rw [List.cons_append, List.cons.injEq] at restEq
        obtain ⟨rfl, restEq⟩ := restEq
        exact .inr ⟨middle, earlierEq, restEq⟩
    | nil =>
        rw [List.append_nil] at earlierEq
        have noEarlier : earlier = [] :=
          eq_nil_of_newlines longest (by rwa [earlierEq])
        rw [noEarlier, List.nil_append] at same
        have divided := newlines_eq_of_append_eq same newlines ownNewlines
          (firstIs_cons.mpr other) followed
        exact .inl ⟨noEarlier, divided.1.symm, divided.2.symm⟩
  · have noEarlier : earlier = [] := by
      apply eq_nil_of_newlines longest
      intro d member
      exact newlines d (by rw [runEq]; exact List.mem_append_left _ member)
    rw [noEarlier, List.nil_append] at same
    have divided := newlines_eq_of_append_eq same newlines ownNewlines
      (firstIs_cons.mpr other) followed
    exact .inl ⟨noEarlier, divided.1.symm, divided.2.symm⟩

/-- A run from its third newline on, in a text that some newlines precede. -/
def IsRun (preceding text : Text) (position first last : Nat) : Prop :=
  ∃ earlier old rest, preceding ++ text =
      earlier ++ ((['\n', '\n'] ++ old) ++ rest) ∧
    LastIs (· ≠ '\n') earlier ∧ old ≠ [] ∧ (∀ c ∈ old, c = '\n') ∧
    (∃ c later, rest = c :: later ∧ c ≠ '\n') ∧
    first = position + earlier.length + 2 ∧ last = first + old.length

theorem two_newlines_append {old : Text} (newlines : ∀ c ∈ old, c = '\n') :
    ∀ c ∈ ['\n', '\n'] ++ old, c = '\n' := by
  intro c member
  simp only [List.cons_append, List.nil_append, List.mem_cons] at member
  rcases member with rfl | rfl | inOld
  · rfl
  · rfl
  · exact newlines c inOld

theorem isRun_cons_of_ne {count position first last : Nat} {c : Char}
    {text : Text} (other : c ≠ '\n') :
    IsRun (List.replicate count '\n') (c :: text) position first last ↔
      (2 < count ∧ first = position + 2 ∧ last = position + count) ∨
        IsRun [] text (position + count + 1) first last := by
  have newlines : ∀ d ∈ List.replicate count '\n', d = '\n' :=
    fun d => List.eq_of_mem_replicate
  constructor
  · rintro ⟨earlier, old, rest, same, longest, some_old, oldNewlines, followed,
      rfl, rfl⟩
    have other_rest : FirstIs (· ≠ '\n') rest := by
      obtain ⟨d, later, rfl, different⟩ := followed
      exact firstIs_cons.mpr different
    rcases run_eq_of_append_eq same other newlines
      (two_newlines_append oldNewlines) longest other_rest with
      ⟨rfl, runEq, rfl⟩ | ⟨later, rfl, rfl⟩
    · left
      have sizes := congrArg List.length runEq
      have inhabited := List.length_pos_iff.mpr some_old
      simp only [List.length_append, List.length_cons, List.length_nil,
        List.length_replicate, true_and] at sizes ⊢
      omega
    · right
      refine ⟨later, old, rest, rfl, ?_, some_old, oldNewlines, followed, ?_, ?_⟩
      · obtain rfl | ⟨later, d, rfl⟩ := later.eq_nil_or_concat'
        · exact lastIs_nil
        · rw [← List.cons_append, ← List.append_assoc, lastIs_concat] at longest
          rwa [lastIs_concat]
      · simp only [List.length_append, List.length_cons, List.length_replicate]
        omega
      · rfl
  · rintro (⟨long, rfl, rfl⟩ | ⟨earlier, old, rest, same, longest, some_old,
      oldNewlines, followed, rfl, rfl⟩)
    · refine ⟨[], List.replicate (count - 2) '\n', c :: text, ?_, lastIs_nil,
        ?_, fun d => List.eq_of_mem_replicate, ⟨c, text, rfl, other⟩, by simp,
        by simp only [List.length_replicate]; omega⟩
      · have run : List.replicate count '\n' =
            ['\n', '\n'] ++ List.replicate (count - 2) '\n' := by
          rw [show count = 2 + (count - 2) by omega,
            List.replicate_add, Nat.add_sub_cancel_left]
          rfl
        rw [run]
        rfl
      · intro nothing
        rw [List.replicate_eq_nil_iff] at nothing
        omega
    · rw [List.nil_append] at same
      refine ⟨List.replicate count '\n' ++ c :: earlier, old, rest,
        by rw [same]; simp, ?_, some_old, oldNewlines, followed, ?_, rfl⟩
      · obtain rfl | ⟨earlier, d, rfl⟩ := earlier.eq_nil_or_concat'
        · rwa [lastIs_concat]
        · rw [lastIs_concat] at longest
          rwa [← List.cons_append, ← List.append_assoc, lastIs_concat]
      · simp only [List.length_append, List.length_cons, List.length_replicate]
        omega

/-- The runs of a text that some newlines precede. -/
theorem mem_runs_iff {position count first last : Nat} {text : Text} :
    (first, last) ∈ runs (position + count) count text ↔
      IsRun (List.replicate count '\n') text position first last := by
  induction text generalizing position count with
  | nil =>
      simp only [runs, List.not_mem_nil, false_iff]
      rintro ⟨earlier, old, rest, same, -, -, -, ⟨c, later, rfl, other⟩, -⟩
      have member : c ∈ List.replicate count '\n' ++ [] := by
        rw [same]
        simp
      rw [List.append_nil] at member
      exact other (List.eq_of_mem_replicate member)
  | cons c text induction =>
      by_cases newline : c = '\n'
      · subst newline
        rw [runs, if_pos rfl, Nat.add_assoc, induction]
        rw [IsRun, IsRun, List.replicate_succ', List.append_assoc]
        rfl
      · rw [isRun_cons_of_ne newline, runs, if_neg newline]
        have later := @induction (position + count + 1) 0
        rw [List.replicate_zero, Nat.add_zero] at later
        split
        · rename_i long
          rw [List.mem_cons, later, Prod.mk.injEq]
          simp only [long, true_and]
          rw [show position + count - (count - 2) = position + 2 by omega]
        · rename_i short
          rw [later]
          simp [short]

/-- The findings are the newlines of the text that exceed a run of two. -/
theorem mem_findings_iff {text : Text} {finding : Finding} :
    finding ∈ findings text ↔
      ∃ front old rest, text = front ++ old ++ rest ∧ Exceeds front old rest ∧
        finding = .replacing front.length (front.length + old.length)
          message [] := by
  have isRun : ∀ first last, (first, last) ∈ runs 0 0 text ↔
      IsRun [] text 0 first last := fun first last => @mem_runs_iff 0 0 first last text
  simp only [findings, List.mem_map, Prod.exists, isRun]
  constructor
  · rintro ⟨first, last, ⟨earlier, old, rest, same, longest, some_old, newlines,
      followed, rfl, rfl⟩, rfl⟩
    refine ⟨earlier ++ ['\n', '\n'], old, rest, by simpa using same,
      ⟨⟨earlier, rfl, longest⟩, some_old, newlines, followed⟩, ?_⟩
    rw [List.length_append, Nat.zero_add]
    rfl
  · rintro ⟨front, old, rest, rfl, ⟨⟨earlier, rfl, longest⟩, some_old, newlines,
      followed⟩, rfl⟩
    refine ⟨earlier.length + 2, earlier.length + 2 + old.length,
      ⟨earlier, old, rest, by simp, longest, some_old, newlines, followed,
        by simp, by simp⟩, ?_⟩
    rw [List.length_append]
    rfl

end ExtraNewline

namespace FinalNewline

/-- A text to whose end a newline is to be added. -/
structure Lacks (text : Text) : Prop where
  inhabited : text ≠ []
  other : LastIs (· ≠ '\n') text

/-- Newlines at the end of a text are not wanted: all of them, or all but the
first. -/
structure Unwanted (present : Bool) (front old : Text) : Prop where
  inhabited : old ≠ []
  newlines : ∀ c ∈ old, c = '\n'
  kept : if present then
      ∃ earlier, front = earlier ++ ['\n'] ∧ LastIs (· ≠ '\n') earlier
    else LastIs (· ≠ '\n') front

def missingMessage : Text := "Missing a trailing newline at the end of the file."

def unwantedMessage (present : Bool) (count : Nat) : Text :=
  if present then "Remove multiple trailing newline at the end of the file."
  else "Remove " ++ Text.ofNat count
    ++ " trailing newline at the end of the file."

theorem count_append {front run : Text} (longest : LastIs (· ≠ '\n') front)
    (newlines : ∀ c ∈ run, c = '\n') : count (front ++ run) = run.length := by
  rw [count, lastRun_append]
  · intro c last
    simpa using longest c last
  · simpa using newlines

theorem findings_of_ends {present : Bool} {front run : Text}
    (longest : LastIs (· ≠ '\n') front) (newlines : ∀ c ∈ run, c = '\n')
    (some_text : front ++ run ≠ []) :
    findings present (front ++ run) =
      if present then
        if run = [] then
          [.replacing (front.length + run.length) (front.length + run.length)
            missingMessage ['\n']]
        else if run.length = 1 then []
        else
          [.replacing (front.length + 1) (front.length + run.length)
            (unwantedMessage true run.length) []]
      else if run = [] then []
      else
        [.replacing front.length (front.length + run.length)
          (unwantedMessage false run.length) []] := by
  have inhabited : ¬(front ++ run).isEmpty = true := by simpa using some_text
  simp only [findings, if_neg inhabited, count_append longest newlines,
    List.length_append, Nat.add_sub_cancel, List.length_eq_zero_iff]
  rfl

theorem exists_ends (text : Text) :
    ∃ front run, text = front ++ run ∧ LastIs (· ≠ '\n') front ∧
      ∀ c ∈ run, c = '\n' := by
  refine ⟨dropLastRun (fun c => c = '\n') text,
    lastRun (fun c => c = '\n') text, (dropLastRun_append_lastRun text).symm,
    ?_, ?_⟩
  · intro c last
    have fails := lastIs_dropLastRun text c last
    simpa using fails
  · intro c member
    have passes := test_of_mem_lastRun member
    simpa using passes

/-- The findings are a missing newline or the newlines that are not wanted. -/
theorem mem_findings_iff {present : Bool} {text : Text} {finding : Finding} :
    finding ∈ findings present text ↔
      (present = true ∧ Lacks text ∧
        finding = .replacing text.length text.length missingMessage ['\n']) ∨
      ∃ front old, text = front ++ old ∧ Unwanted present front old ∧
        finding = .replacing front.length (front.length + old.length)
          (unwantedMessage present old.length) [] := by
  constructor
  · intro member
    obtain ⟨front, run, rfl, longest, newlines⟩ := exists_ends text
    by_cases empty : front ++ run = []
    · simp [empty, findings] at member
    · rw [findings_of_ends longest newlines empty] at member
      cases run with
      | nil =>
          rw [List.append_nil] at empty
          cases present with
          | false => simp at member
          | true =>
              left
              simp only [if_true, List.mem_singleton] at member
              rw [List.append_nil]
              exact ⟨rfl, ⟨empty, longest⟩, member⟩
      | cons c run =>
          right
          have newline := newlines c (.head _)
          subst newline
          have later : ∀ c ∈ run, c = '\n' := fun c inRun =>
            newlines c (.tail _ inRun)
          cases present with
          | false =>
              simp only [Bool.false_eq_true, if_false, List.cons_ne_nil,
                List.mem_singleton] at member
              exact ⟨front, '\n' :: run, rfl,
                ⟨List.cons_ne_nil _ _, newlines, by simpa using longest⟩, member⟩
          | true =>
              cases run with
              | nil => simp at member
              | cons d run =>
                  have several : ¬('\n' :: d :: run).length = 1 := by simp
                  simp only [if_true, List.cons_ne_nil, if_false, if_neg several,
                    List.mem_singleton] at member
                  refine ⟨front ++ ['\n'], d :: run, by simp,
                    ⟨List.cons_ne_nil _ _, later, front, rfl, longest⟩, ?_⟩
                  rw [member, List.length_append, List.length_cons,
                    List.length_singleton, Nat.add_assoc, Nat.add_comm 1]
                  rfl
  · rintro (⟨rfl, lacks, rfl⟩ | ⟨front, old, rfl, unwanted, rfl⟩)
    · have found := @findings_of_ends true text [] lacks.other (by simp)
        (by simpa using lacks.inhabited)
      rw [List.append_nil] at found
      simp [found]
    · obtain ⟨some_old, newlines, kept⟩ := unwanted
      cases present with
      | false =>
          have longest : LastIs (· ≠ '\n') front := by simpa using kept
          have found := @findings_of_ends false front old longest newlines
            (by simp [some_old])
          simp [found, some_old]
      | true =>
          obtain ⟨earlier, rfl, longest⟩ := kept
          have several : ¬('\n' :: old).length = 1 := by simp [some_old]
          have found := @findings_of_ends true earlier ('\n' :: old) longest
            (by simpa using newlines) (by simp)
          simp only [if_true, List.cons_ne_nil, if_false, if_neg several] at found
          rw [List.append_assoc, List.singleton_append, found,
            List.mem_singleton, List.length_append, List.length_singleton,
            List.length_cons, Nat.add_assoc, Nat.add_comm 1]
          rfl

end FinalNewline

end TemplateLint
