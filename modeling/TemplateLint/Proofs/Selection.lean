import TemplateLint.Proofs.Selection.Greedy

/-!
# What a selection accepts

A selection accepts candidates that do not conflict with one another, and
every candidate that it does not accept conflicts with an accepted one.
-/

namespace TemplateLint.Selection

variable {linters : List Linter}

theorem ofLinters_accepted_subset :
    (ofLinters linters).accepted ⊆ candidates linters := by
  obtain ⟨verdicts, complete, decides⟩ := exists_ofLinters_decides linters
  rw [decides.accepted, ← complete]
  exact verdicts.accepted_sublist.subset

theorem ofLinters_accepted_pairwise :
    (ofLinters linters).accepted.Pairwise fun first second =>
      first.correction.overlaps second.correction = false := by
  obtain ⟨verdicts, -, decides⟩ := exists_ofLinters_decides linters
  rw [decides.accepted]
  exact decides.greedy.accepted_pairwise

/-- Every candidate is accepted or conflicts with an accepted one. -/
theorem exists_ofLinters_accepted {candidate : Candidate}
    (member : candidate ∈ candidates linters) :
    ∃ kept ∈ (ofLinters linters).accepted,
      candidate.correction.overlaps kept.correction = true := by
  obtain ⟨verdicts, complete, decides⟩ := exists_ofLinters_decides linters
  rw [← complete] at member
  rw [decides.accepted]
  exact decides.greedy.exists_accepted member

theorem ofLinters_accepted_eq_nil_iff :
    (ofLinters linters).accepted = [] ↔ candidates linters = [] := by
  constructor
  · intro nothing
    apply List.eq_nil_iff_forall_not_mem.mpr
    intro candidate member
    obtain ⟨kept, accepted, -⟩ := exists_ofLinters_accepted member
    rw [nothing] at accepted
    contradiction
  · intro none
    apply List.eq_nil_iff_forall_not_mem.mpr
    intro kept accepted
    have member := ofLinters_accepted_subset accepted
    rw [none] at member
    contradiction

/-- A selection corrects a text by a script, whose corrections are the
accepted ones. -/
theorem exists_script_corrected {text : Text}
    (within : ∀ candidate ∈ candidates linters,
      candidate.correction.Within text.length) :
    ∃ script, Script.before script = text ∧
      Script.after script = (ofLinters linters).corrected text ∧
      (Script.made 0 script).Perm (ofLinters linters).corrections ∧
      (Script.made 0 script).Pairwise fun first second =>
        first.overlaps second = false := by
  apply Correction.exists_script_applyAll
  · intro correction member
    obtain ⟨candidate, accepted, rfl⟩ := List.mem_map.mp member
    exact within candidate (ofLinters_accepted_subset accepted)
  · exact List.pairwise_map.mpr ofLinters_accepted_pairwise

end TemplateLint.Selection
