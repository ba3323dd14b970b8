import Mathlib.Data.List.Basic
import Mathlib.Data.List.Induction
import TemplateLint.Discovery

/-!
# Order of discovered files

Files that are sorted increase strictly by their components.  What is left of
a list without repetitions stands in the order of first occurrences.
-/

namespace TemplateLint

theorem lt_or_gt_of_ne {first second : String} (different : first ≠ second) :
    first < second ∨ second < first := by
  by_contra neither
  rw [not_or, String.not_lt, String.not_lt] at neither
  exact different (String.le_antisymm neither.2 neither.1)

theorem precedes_total (left right : List String) :
    precedes left right = true ∨ precedes right left = true := by
  induction left generalizing right with
  | nil => exact .inl rfl
  | cons first left induction =>
      cases right with
      | nil => exact .inr rfl
      | cons second right =>
          by_cases same : first = second
          · simpa [precedes, same] using induction right
          · simpa [precedes, same, Ne.symm same] using lt_or_gt_of_ne same

theorem precedes_trans {left middle right : List String}
    (before : precedes left middle = true)
    (after : precedes middle right = true) : precedes left right = true := by
  induction left generalizing middle right with
  | nil => rfl
  | cons first left induction =>
      cases middle with
      | nil => contradiction
      | cons second middle =>
          cases right with
          | nil => contradiction
          | cons third right =>
              rw [precedes] at before after ⊢
              by_cases same : first = second
              · subst same
                split at after
                · rw [if_pos rfl] at before
                  rw [if_pos ‹_›]
                  exact induction before after
                · rwa [if_neg ‹_›]
              · rw [if_neg same, decide_eq_true_eq] at before
                have less : first < third := by
                  split at after
                  · rwa [← ‹second = third›]
                  · exact String.lt_trans before (of_decide_eq_true after)
                rw [if_neg (String.ne_of_lt less)]
                exact decide_eq_true less

/-- Files are ordered by their components. -/
theorem lt_of_precedes {left right : List String} (different : left ≠ right)
    (before : precedes left right = true) : left < right := by
  induction left generalizing right with
  | nil =>
      cases right with
      | nil => contradiction
      | cons second right => exact List.nil_lt_cons _ _
  | cons first left induction =>
      cases right with
      | nil => contradiction
      | cons second right =>
          rw [precedes] at before
          rw [List.cons_lt_cons_iff]
          split at before
          · rename_i same
            subst same
            exact .inr ⟨rfl, induction (by simpa using different) before⟩
          · exact .inl (of_decide_eq_true before)

section Occurrences

variable {α : Type} [BEq α] [LawfulBEq α]

/-- What is left without repetitions stands in the order of first
occurrences. -/
theorem pairwise_idxOf_eraseDups (items : List α) :
    items.eraseDups.Pairwise fun first second =>
      items.idxOf first < items.idxOf second := by
  induction items using List.reverseRecOn with
  | nil => exact .nil
  | append_singleton items last induction =>
      have kept : items.eraseDups.Pairwise fun first second =>
          (items ++ [last]).idxOf first < (items ++ [last]).idxOf second := by
        refine induction.imp_of_mem ?_
        intro first second memberFirst memberSecond before
        rwa [List.idxOf_append_of_mem (List.mem_eraseDups.mp memberFirst),
          List.idxOf_append_of_mem (List.mem_eraseDups.mp memberSecond)]
      rw [List.eraseDups_append]
      by_cases known : last ∈ items
      · have none : [last].removeAll items = [] := by
          simp [List.removeAll, known]
        rwa [none, List.eraseDups_nil, List.append_nil]
      · have new : [last].removeAll items = [last] := by
          simp [List.removeAll, known]
        rw [new, List.pairwise_append]
        refine ⟨kept, List.pairwise_singleton _ _, ?_⟩
        intro first member other isLast
        have before := List.mem_eraseDups.mp member
        obtain rfl := List.mem_singleton.mp isLast
        rw [List.idxOf_append_of_mem before,
          List.idxOf_append_of_notMem known]
        exact Nat.lt_add_right _ (List.idxOf_lt_length_of_mem before)

theorem nodup_eraseDups (items : List α) : items.eraseDups.Nodup := by
  refine (pairwise_idxOf_eraseDups items).imp ?_
  rintro first second before rfl
  exact Nat.lt_irrefl _ before

end Occurrences

theorem mem_sortedFiles {files : List (List String)} {file : List String} :
    file ∈ sortedFiles files ↔ file ∈ files := by
  rw [sortedFiles, List.mem_mergeSort, List.mem_eraseDups]

/-- Sorted files increase strictly. -/
theorem pairwise_lt_sortedFiles (files : List (List String)) :
    (sortedFiles files).Pairwise (· < ·) := by
  have distinct : (sortedFiles files).Nodup :=
    (List.mergeSort_perm _ _).nodup_iff.mpr (nodup_eraseDups files)
  have sorted : (sortedFiles files).Pairwise fun left right =>
      precedes left right = true := by
    apply List.pairwise_mergeSort
    · exact fun _ _ _ => precedes_trans
    · intro first second
      rw [Bool.or_eq_true]
      exact precedes_total first second
  refine (sorted.and distinct).imp ?_
  rintro left right ⟨before, different⟩
  exact lt_of_precedes different before

end TemplateLint
