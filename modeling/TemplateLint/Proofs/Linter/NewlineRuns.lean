import Mathlib.Data.List.SplitBy
import TemplateLint.Proofs.Engine.Single
import TemplateLint.Proofs.Linter.Newlines

/-!
# Runs of newlines cut to two

A pass of `ExtraNewline` alone cuts each run of newlines to two, but for one
that reaches the end of the text.
-/

namespace TemplateLint.ExtraNewline

open Text Script

/-! ## The reference text -/

/-- The longest runs of newlines and the longest runs of other characters. -/
def runsOf (text : Text) : List Text :=
  text.splitBy fun c d => decide (c = '\n') == decide (d = '\n')

/-- A run of newlines without those behind the second one. -/
def cutRun (run : Text) : Text := if '\n' ∈ run then run.take 2 else run

/-- The text with each run of newlines cut to two, but for a run that reaches
the end of the text. -/
def reference (text : Text) : Text :=
  ((runsOf text).dropLast.map cutRun).flatten ++ (runsOf text).getLast?.getD []

/-- A run does not go on behind its end. -/
theorem runsOf_append {run rest : Text} (some_run : run ≠ [])
    (uniform : ∀ c ∈ run, ∀ d ∈ run, (c = '\n' ↔ d = '\n'))
    (ends : ∀ c ∈ run, ∀ d ∈ rest.head?, ¬(c = '\n' ↔ d = '\n')) :
    runsOf (run ++ rest) = run :: runsOf rest := by
  rw [runsOf, List.splitBy_append, List.splitBy_of_isChain some_run]
  · rfl
  · apply List.Pairwise.isChain
    apply List.pairwise_of_forall_mem_list
    intro c inRun d inRunToo
    simpa using uniform c inRun d inRunToo
  · intro c last d first
    have differs := ends c (List.mem_of_getLast? last) d first
    simpa using differs

theorem reference_append {run rest : Text} (some_run : run ≠ [])
    (uniform : ∀ c ∈ run, ∀ d ∈ run, (c = '\n' ↔ d = '\n'))
    (ends : ∀ c ∈ run, ∀ d ∈ rest.head?, ¬(c = '\n' ↔ d = '\n')) :
    reference (run ++ rest) =
      (if rest = [] then run else cutRun run) ++ reference rest := by
  rw [reference, runsOf_append some_run uniform ends]
  by_cases nothing : rest = []
  · simp [nothing, runsOf, reference]
  · obtain ⟨first, later, runs⟩ :=
      List.exists_cons_of_ne_nil (List.splitBy_ne_nil.mpr nothing)
    rw [if_neg nothing, reference, runsOf, runs]
    simp

/-- Other characters than newlines are kept. -/
theorem reference_line_append {line rest : Text} (single : '\n' ∉ line)
    (ends : AtLineEnd rest) : reference (line ++ rest) = line ++ reference rest := by
  by_cases some_line : line = []
  · simp [some_line]
  · have other : ∀ c ∈ line, c ≠ '\n' := fun c member same => single (same ▸ member)
    rw [reference_append some_line]
    · rw [cutRun, if_neg single, ite_self]
    · intro c inLine d inLineToo
      simp [other c inLine, other d inLineToo]
    · intro c inLine d first
      simp [other c inLine, ends d first]

theorem reference_cons {c : Char} {rest : Text} (other : c ≠ '\n') :
    reference (c :: rest) = c :: reference rest := by
  have ends : AtLineEnd (rest.dropWhile (· ≠ '\n')) := by
    intro d first
    simpa using firstIs_dropWhile rest d first
  have single : '\n' ∉ rest.takeWhile (· ≠ '\n') := by
    intro member
    simpa using List.mem_takeWhile_imp member
  have parts := @List.takeWhile_append_dropWhile _ (· ≠ '\n') rest
  -- the run that `c` begins ends where the one behind it does
  have longer := @reference_line_append (c :: rest.takeWhile (· ≠ '\n')) _
    (by simpa [other.symm] using single) ends
  rw [List.cons_append, parts, List.cons_append, ← reference_line_append single ends,
    parts] at longer
  exact longer

/-- Newlines are cut to two if something follows them. -/
theorem reference_run_append (count : Nat) {rest : Text}
    (ends : FirstIs (· ≠ '\n') rest) :
    reference (List.replicate count '\n' ++ rest) =
      List.replicate (if rest = [] then count else min 2 count) '\n' ++
        reference rest := by
  cases count with
  | zero => simp
  | succ count =>
      have cut : cutRun (List.replicate (count + 1) '\n') =
          List.replicate (min 2 (count + 1)) '\n' := by
        rw [cutRun, if_pos (by simp), List.take_replicate]
      rw [reference_append, cut]
      · by_cases nothing : rest = []
        · simp [nothing]
        · simp [nothing]
      · exact List.cons_ne_nil _ _
      · intro c inRun d inRunToo
        rw [List.eq_of_mem_replicate inRun, List.eq_of_mem_replicate inRunToo]
      · intro c inRun d first
        simp [List.eq_of_mem_replicate inRun, ends d first]

/-- Newlines at the end are kept. -/
theorem reference_newlines (count : Nat) :
    reference (List.replicate count '\n') = List.replicate count '\n' := by
  have run := reference_run_append count firstIs_nil
  rw [List.append_nil, if_pos rfl] at run
  rw [run]
  exact List.append_nil _

/-- Newlines in front of another character are cut to two. -/
theorem reference_newlines_append {count : Nat} {c : Char} {rest : Text}
    (other : c ≠ '\n') :
    reference (List.replicate count '\n' ++ c :: rest) =
      List.replicate (min 2 count) '\n' ++ c :: reference rest := by
  rw [reference_run_append count (firstIs_cons.mpr other),
    if_neg (List.cons_ne_nil _ _), reference_cons other]

/-! ## Texts by their newlines -/

/-- A text is newlines alone, or newlines before another character and a text
behind it. -/
theorem newlines_induction {motive : Text → Prop}
    (newlines : ∀ count, motive (List.replicate count '\n'))
    (more : ∀ count c rest, c ≠ '\n' → motive rest →
      motive (List.replicate count '\n' ++ c :: rest))
    (text : Text) : motive text := by
  induction size : text.length using Nat.strongRecOn generalizing text with
  | ind size induction =>
      have run : text.takeWhile (· = '\n') =
          List.replicate (text.takeWhile (· = '\n')).length '\n' := by
        apply List.eq_replicate_of_mem
        intro c member
        simpa using List.mem_takeWhile_imp member
      have parts := @List.takeWhile_append_dropWhile _ (· = '\n') text
      have first := @firstIs_dropWhile (· = '\n') text
      rw [run] at parts
      cases behind : text.dropWhile (· = '\n') with
      | nil =>
          rw [behind, List.append_nil] at parts
          rw [← parts]
          exact newlines _
      | cons c rest =>
          rw [behind] at parts first
          have sizes := congrArg List.length parts
          rw [List.length_append, List.length_cons] at sizes
          rw [← parts]
          apply more
          · simpa using first
          · exact induction rest.length (by omega) rest rfl

theorem runs_newlines (position count more : Nat) (rest : Text) :
    runs position count (List.replicate more '\n' ++ rest) =
      runs (position + more) (count + more) rest := by
  induction more generalizing position count with
  | zero => rfl
  | succ more induction =>
      rw [List.replicate_succ, List.cons_append, runs, if_pos rfl, induction,
        Nat.add_assoc, Nat.add_assoc, Nat.add_comm 1]

theorem runs_newlines_append {position count : Nat} {c : Char} {rest : Text}
    (other : c ≠ '\n') :
    runs position 0 (List.replicate count '\n' ++ c :: rest) =
      (if 2 < count then [(position + 2, position + count)] else []) ++
        runs (position + count + 1) 0 rest := by
  rw [runs_newlines, Nat.zero_add, runs, if_neg other]
  split
  · rw [show position + count - (count - 2) = position + 2 by omega]
    rfl
  · rfl

theorem runs_only_newlines (position count : Nat) :
    runs position 0 (List.replicate count '\n') = [] := by
  have none := runs_newlines position 0 count []
  rwa [List.append_nil] at none

/-! ## A pass -/

/-- The correction of a run. -/
def removal (run : Nat × Nat) : Correction := ⟨run.1, run.2, []⟩

theorem exists_script (position : Nat) (text : Text) :
    ∃ script, before script = text ∧ after script = reference text ∧
      made position script = (runs position 0 text).map removal := by
  induction text using newlines_induction generalizing position with
  | newlines count =>
      refine ⟨keeping (List.replicate count '\n'), before_keeping _, ?_, ?_⟩
      · rw [after_keeping, reference_newlines]
      · rw [made_only_keeping, runs_only_newlines]
        rfl
  | more count c rest other induction =>
      obtain ⟨later, goesThrough, leaves, makes⟩ := induction (position + count + 1)
      rw [reference_newlines_append other, runs_newlines_append other]
      by_cases long : 2 < count
      · have run : List.replicate count '\n' =
            ['\n', '\n'] ++ List.replicate (count - 2) '\n' := by
          rw [show count = 2 + (count - 2) by omega, List.replicate_add,
            Nat.add_sub_cancel_left]
          rfl
        refine ⟨keeping ['\n', '\n'] ++
          .swap (List.replicate (count - 2) '\n') [] :: .keep c :: later, ?_, ?_, ?_⟩
        · rw [run, before_append, before_keeping, before_swap, before_keep, goesThrough,
            List.append_assoc]
        · rw [Nat.min_eq_left (by omega), after_append, after_keeping, after_swap,
            after_keep, leaves]
          rfl
        · rw [if_pos long, made_keeping, made, made, List.length_replicate,
            List.map_append, List.map_singleton, ← makes]
          simp only [List.length_cons, List.length_nil, removal, List.cons_append,
            List.nil_append, List.cons.injEq, Correction.mk.injEq, true_and, and_true]
          refine ⟨?_, ?_⟩
          · omega
          · congr 1
            omega
      · refine ⟨keeping (List.replicate count '\n') ++ .keep c :: later, ?_, ?_, ?_⟩
        · rw [before_append, before_keeping, before_keep, goesThrough]
        · rw [Nat.min_eq_right (by omega), after_append, after_keeping, after_keep,
            leaves]
        · rw [if_neg long, made_keeping, made, List.length_replicate, makes]
          rfl

theorem mends_reference (text : Text) :
    Mends (findings text) text (reference text) := by
  obtain ⟨script, rfl, leaves, makes⟩ := exists_script 0 text
  rw [← leaves]
  apply Mends.of_script
  · rw [makes, findings, List.filterMap_map, ← List.filterMap_eq_map]
    rfl
  · intro finding found
    obtain ⟨front, old, rest, whole, exceeds, rfl⟩ := mem_findings_iff.mp found
    exact ⟨front, old, rest, message, [], whole, exceeds.inhabited, rfl⟩

theorem runs_reference (position : Nat) (text : Text) :
    runs position 0 (reference text) = [] := by
  induction text using newlines_induction generalizing position with
  | newlines count => rw [reference_newlines, runs_only_newlines]
  | more count c rest other induction =>
      rw [reference_newlines_append other, runs_newlines_append other, induction,
        if_neg (by omega), List.append_nil]

/-- Nothing is found once runs are cut. -/
theorem findings_reference (text : Text) : findings (reference text) = [] := by
  rw [findings, runs_reference, List.map_nil]

end TemplateLint.ExtraNewline
