import Mathlib.Data.List.Induction
import TemplateLint.Proofs.Correction.Script
import TemplateLint.Selection

/-!
# Greedy selection

A selection passes a verdict on each candidate in its turn, and the verdicts
say everything about it: no candidate is lost, both of its lists keep the
order of the candidates, and a candidate is dropped exactly if it conflicts
with one that was accepted before it.
-/

namespace TemplateLint.Selection

/-- The candidates that linters propose together. -/
def candidates (linters : List Linter) : List Candidate :=
  linters.flatMap Linter.candidates

/-- The corrections that offenses of correctable linters carry, in the order of
linters and offenses. -/
def proposals (linters : List Linter) : List Candidate :=
  (linters.filter (·.linterClass.correctable)).flatMap fun linter =>
    linter.offenses.filterMap fun offense =>
      offense.correction.map (Candidate.mk offense)

theorem candidates_eq_proposals (linters : List Linter) :
    candidates linters = proposals linters := by
  induction linters with
  | nil => rfl
  | cons linter linters induction =>
      rw [candidates, proposals] at induction ⊢
      rw [List.flatMap_cons, induction, List.filter_cons]
      by_cases correctable : linter.linterClass.correctable = true
      · simp [Linter.candidates, Linter.correction?, correctable]
      · simp [Linter.candidates, Linter.correction?, correctable]

/-- Candidates in their order, each with whether it is accepted. -/
abbrev Verdicts := List (Candidate × Bool)

namespace Verdicts

def accepted (verdicts : Verdicts) : List Candidate :=
  (verdicts.filter (·.2)).map (·.1)

def dropped (verdicts : Verdicts) : List Candidate :=
  (verdicts.filter (!·.2)).map (·.1)

/-- A candidate conflicts with one of those accepted before it. -/
def Conflicts (earlier : Verdicts) (candidate : Candidate) : Prop :=
  ∃ kept ∈ accepted earlier,
    candidate.correction.overlaps kept.correction = true

/-- Exactly the candidates that conflict with an accepted one are dropped. -/
def Greedy (verdicts : Verdicts) : Prop :=
  ∀ earlier candidate verdict later,
    verdicts = earlier ++ (candidate, verdict) :: later →
      (verdict = false ↔ Conflicts earlier candidate)

variable {verdicts : Verdicts}

@[simp] theorem accepted_concat (verdicts : Verdicts) (candidate : Candidate)
    (verdict : Bool) :
    accepted (verdicts ++ [(candidate, verdict)]) =
      accepted verdicts ++ if verdict then [candidate] else [] := by
  cases verdict <;> simp [accepted]

@[simp] theorem dropped_concat (verdicts : Verdicts) (candidate : Candidate)
    (verdict : Bool) :
    dropped (verdicts ++ [(candidate, verdict)]) =
      dropped verdicts ++ if verdict then [] else [candidate] := by
  cases verdict <;> simp [dropped]

theorem accepted_sublist (verdicts : Verdicts) :
    (accepted verdicts).Sublist (verdicts.map (·.1)) :=
  List.filter_sublist.map _

theorem dropped_sublist (verdicts : Verdicts) :
    (dropped verdicts).Sublist (verdicts.map (·.1)) :=
  List.filter_sublist.map _

/-- Every candidate is accepted or dropped, and that once. -/
theorem accepted_append_dropped_perm (verdicts : Verdicts) :
    (accepted verdicts ++ dropped verdicts).Perm (verdicts.map (·.1)) := by
  rw [accepted, dropped, ← List.map_append]
  exact (List.filter_append_perm (·.2) verdicts).map _

theorem Greedy.nil : Greedy [] := by
  intro earlier candidate verdict later split
  simp at split

theorem Greedy.of_append {later : Verdicts}
    (greedy : Greedy (verdicts ++ later)) : Greedy verdicts := by
  intro earlier candidate verdict rest split
  apply greedy earlier candidate verdict (rest ++ later)
  rw [split, List.append_assoc, List.cons_append]

/-- One more verdict leaves the earlier ones as they are. -/
theorem Greedy.concat {candidate : Candidate} {verdict : Bool}
    (greedy : Greedy verdicts)
    (decides : verdict = false ↔ Conflicts verdicts candidate) :
    Greedy (verdicts ++ [(candidate, verdict)]) := by
  intro earlier other given later split
  rcases List.eq_nil_or_concat later with rfl | ⟨between, last, rfl⟩
  · obtain ⟨rfl, same⟩ := List.append_inj' split rfl
    cases same
    exact decides
  · rw [List.concat_eq_append, ← List.cons_append, ← List.append_assoc] at split
    exact greedy earlier other given between (List.append_inj_left' split rfl)

/-- Accepted candidates are apart from one another. -/
theorem Greedy.accepted_pairwise (greedy : Greedy verdicts) :
    (accepted verdicts).Pairwise fun first second =>
      first.correction.overlaps second.correction = false := by
  induction verdicts using List.reverseRecOn with
  | nil => exact List.Pairwise.nil
  | append_singleton verdicts last induction =>
      obtain ⟨candidate, verdict⟩ := last
      have apart := induction greedy.of_append
      have decides := greedy verdicts candidate verdict [] rfl
      rw [accepted_concat]
      cases verdict with
      | false => simpa using apart
      | true =>
          rw [if_pos rfl, List.pairwise_append]
          refine ⟨apart, List.pairwise_singleton _ _, ?_⟩
          intro kept member other last
          rw [List.mem_singleton.mp last, Correction.overlaps_comm]
          by_contra overlap
          rw [Bool.not_eq_false] at overlap
          simpa using decides.mpr ⟨kept, member, overlap⟩

/-- A candidate is accepted or conflicts with an accepted one; a correction
conflicts with itself. -/
theorem Greedy.exists_accepted (greedy : Greedy verdicts) {candidate : Candidate}
    (member : candidate ∈ verdicts.map (·.1)) :
    ∃ kept ∈ accepted verdicts,
      candidate.correction.overlaps kept.correction = true := by
  obtain ⟨⟨other, verdict⟩, inVerdicts, same⟩ := List.mem_map.mp member
  obtain rfl : other = candidate := same
  cases verdict with
  | true =>
      refine ⟨other, ?_, by simp [Correction.overlaps]⟩
      exact List.mem_map.mpr
        ⟨_, List.mem_filter.mpr ⟨inVerdicts, rfl⟩, rfl⟩
  | false =>
      obtain ⟨earlier, later, rfl⟩ := List.append_of_mem inVerdicts
      obtain ⟨kept, before, overlap⟩ :=
        (greedy earlier other false later rfl).mp rfl
      refine ⟨kept, ?_, overlap⟩
      rw [accepted, List.filter_append, List.map_append]
      exact List.mem_append_left _ before

/-- Candidates that do not conflict are all accepted. -/
theorem Greedy.forall_accepted (greedy : Greedy verdicts)
    (apart : (verdicts.map (·.1)).Pairwise fun first second =>
      first.correction.overlaps second.correction = false) :
    ∀ given ∈ verdicts, given.2 = true := by
  rintro ⟨candidate, verdict⟩ member
  by_contra refused
  rw [Bool.not_eq_true] at refused
  obtain ⟨earlier, later, rfl⟩ := List.append_of_mem member
  obtain ⟨kept, before, overlap⟩ :=
    (greedy earlier candidate verdict later rfl).mp refused
  rw [List.map_append, List.pairwise_append] at apart
  have separate := apart.2.2 kept ((accepted_sublist earlier).subset before)
    candidate (by simp)
  rw [Correction.overlaps_comm, overlap] at separate
  contradiction

end Verdicts

/-- Verdicts that a selection has passed. -/
structure Decides (verdicts : Verdicts) (selection : Selection) : Prop where
  accepted : selection.accepted = verdicts.accepted
  dropped : selection.dropped = verdicts.dropped
  greedy : verdicts.Greedy

/-- Considering a candidate passes one more verdict. -/
theorem Decides.consider {verdicts : Verdicts} {selection : Selection}
    (decides : Decides verdicts selection) (candidate : Candidate) :
    ∃ verdict, Decides (verdicts ++ [(candidate, verdict)])
      (selection.consider candidate) := by
  by_cases conflict : selection.accepted.any fun kept =>
      candidate.correction.overlaps kept.correction
  · have conflicts : verdicts.Conflicts candidate := by
      rwa [decides.accepted, List.any_eq_true] at conflict
    have considered : selection.consider candidate =
        ⟨selection.accepted, selection.dropped ++ [candidate]⟩ := if_pos conflict
    refine ⟨false, ?_, ?_, decides.greedy.concat (by simp [conflicts])⟩
    · simp [considered, decides.accepted]
    · simp [considered, decides.dropped]
  · have apart : ¬verdicts.Conflicts candidate := by
      rwa [decides.accepted, List.any_eq_true] at conflict
    have considered : selection.consider candidate =
        ⟨selection.accepted ++ [candidate], selection.dropped⟩ := if_neg conflict
    refine ⟨true, ?_, ?_, decides.greedy.concat (by simp [apart])⟩
    · simp [considered, decides.accepted]
    · simp [considered, decides.dropped]

/-- Considering candidates one after another passes a verdict on each. -/
theorem exists_decides (candidates : List Candidate) :
    ∃ verdicts, verdicts.map (·.1) = candidates ∧
      Decides verdicts (candidates.foldl consider empty) := by
  induction candidates using List.reverseRecOn with
  | nil => exact ⟨[], rfl, rfl, rfl, Verdicts.Greedy.nil⟩
  | append_singleton candidates candidate induction =>
      obtain ⟨verdicts, rfl, decides⟩ := induction
      obtain ⟨verdict, more⟩ := decides.consider candidate
      refine ⟨verdicts ++ [(candidate, verdict)], by simp, ?_⟩
      rwa [List.foldl_append]

/-- The verdicts of a selection among what linters propose. -/
theorem exists_ofLinters_decides (linters : List Linter) :
    ∃ verdicts : Verdicts, verdicts.map (·.1) = candidates linters ∧
      Decides verdicts (ofLinters linters) :=
  exists_decides (candidates linters)

/-- Selecting among what linters propose passes one verdict on each proposal,
and drops exactly those that conflict with one accepted before.  So all
proposals are kept or dropped, in their order, and no two that are kept
conflict. -/
theorem ofLinters_decides_greedily (linters : List Linter) :
    ∃ verdicts : Verdicts,
      verdicts.map (·.1) = proposals linters ∧
      (ofLinters linters).accepted = verdicts.accepted ∧
      (ofLinters linters).dropped = verdicts.dropped ∧
      verdicts.Greedy ∧
      ((ofLinters linters).accepted ++ (ofLinters linters).dropped).Perm
        (proposals linters) ∧
      (ofLinters linters).accepted.Sublist (proposals linters) ∧
      (ofLinters linters).dropped.Sublist (proposals linters) ∧
      (ofLinters linters).accepted.Pairwise fun first second =>
        first.correction.overlaps second.correction = false ∧
          second.correction.overlaps first.correction = false := by
  obtain ⟨verdicts, complete, decides⟩ := exists_ofLinters_decides linters
  rw [candidates_eq_proposals] at complete
  refine ⟨verdicts, complete, decides.accepted, decides.dropped,
    decides.greedy, ?_⟩
  rw [decides.accepted, decides.dropped, ← complete]
  refine ⟨verdicts.accepted_append_dropped_perm, verdicts.accepted_sublist,
    verdicts.dropped_sublist, ?_⟩
  apply decides.greedy.accepted_pairwise.imp
  intro first second apart
  exact ⟨apart, by rwa [Correction.overlaps_comm]⟩

end TemplateLint.Selection
