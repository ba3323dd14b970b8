import TemplateLint.Proofs.Value.Equality
import TemplateLint.Proofs.Value.Paths

/-!
# Accumulated lists

Where both layers have a list of excludes, the list of the base is continued
by the items of the other that are not in it.  An item that the other list
repeats is therefore taken as often as it stands there.
-/

namespace TemplateLint

namespace Value

/-! ## Accumulated lists -/

variable {current added others : List Value} {item : Value}

theorem occursIn_iff : item.occursIn current = true ↔
    ∃ other ∈ current, other.equal item = true := by
  rw [occursIn, List.any_eq_true]

theorem occursIn_of_mem (member : item ∈ current) : item.occursIn current = true :=
  occursIn_iff.mpr ⟨item, member, equal_self item⟩

theorem mem_accumulate_iff : item ∈ accumulate current added ↔
    item ∈ current ∨ item ∈ added ∧ item.occursIn current = false := by
  simp [accumulate]

/-- Every item of both lists occurs in the accumulated one. -/
theorem occursIn_accumulate_of_mem (member : item ∈ added) :
    item.occursIn (accumulate current added) = true := by
  cases occurs : item.occursIn current with
  | true =>
      obtain ⟨other, here, same⟩ := occursIn_iff.mp occurs
      exact occursIn_iff.mpr ⟨other, List.mem_append_left _ here, same⟩
  | false => exact occursIn_of_mem (mem_accumulate_iff.mpr (.inr ⟨member, occurs⟩))

/-- What occurs in the accumulated list occurs in one of the two. -/
theorem occursIn_accumulate (stored : AreStored current) (storedItem : item.IsStored) :
    item.occursIn (accumulate current added) =
      (item.occursIn current || item.occursIn added) := by
  rw [Bool.eq_iff_iff, Bool.or_eq_true]
  constructor
  · intro occurs
    obtain ⟨other, member, same⟩ := occursIn_iff.mp occurs
    rcases mem_accumulate_iff.mp member with before | ⟨behind, -⟩
    · exact .inl (occursIn_iff.mpr ⟨other, before, same⟩)
    · exact .inr (occursIn_iff.mpr ⟨other, behind, same⟩)
  · rintro (occurs | occurs)
    · obtain ⟨other, member, same⟩ := occursIn_iff.mp occurs
      exact occursIn_iff.mpr ⟨other, List.mem_append_left _ member, same⟩
    · obtain ⟨other, member, same⟩ := occursIn_iff.mp occurs
      cases before : other.occursIn current with
      | false =>
          exact occursIn_iff.mpr
            ⟨other, mem_accumulate_iff.mpr (.inr ⟨member, before⟩), same⟩
      | true =>
          -- an equal item of the first list has kept this one out
          obtain ⟨first, here, sameFirst⟩ := occursIn_iff.mp before
          exact occursIn_iff.mpr ⟨first, List.mem_append_left _ here,
            equal_trans first (isStored_of_mem stored here) storedItem sameFirst same⟩

theorem accumulate_cons_of_occursIn (occurs : item.occursIn current = true) :
    accumulate current (item :: added) = accumulate current added := by
  rw [accumulate, List.filter_cons_of_neg (by simpa using occurs)]
  rfl

theorem accumulate_cons_of_new (new : item.occursIn current = false)
    (different : ∀ other ∈ added, item.equal other = false) :
    accumulate current (item :: added) = accumulate (current ++ [item]) added := by
  have later : added.filter (fun other => !other.occursIn (current ++ [item])) =
      added.filter fun other => !other.occursIn current := by
    apply List.filter_congr
    intro other member
    simp [occursIn, different other member]
  rw [accumulate, List.filter_cons_of_pos (by simpa using new), accumulate, later,
    List.append_assoc, List.singleton_append]

theorem accumulate_absorbs (current added : List Value) :
    accumulate (accumulate current added) added = accumulate current added := by
  have nothing : added.filter (fun item => !item.occursIn (accumulate current added)) =
      [] := by
    rw [List.filter_eq_nil_iff]
    intro item member
    simp [occursIn_accumulate_of_mem member]
  rw [accumulate, nothing, List.append_nil]

theorem accumulate_assoc (stored : AreStored current) (storedOthers : AreStored others) :
    accumulate (accumulate current added) others =
      accumulate current (accumulate added others) := by
  have later : others.filter (fun item => !item.occursIn (accumulate current added)) =
      (others.filter fun item => !item.occursIn added).filter
        fun item => !item.occursIn current := by
    rw [List.filter_filter]
    apply List.filter_congr
    intro item member
    rw [occursIn_accumulate stored (isStored_of_mem storedOthers member), Bool.not_or]
  rw [accumulate, later, accumulate, accumulate, accumulate, List.filter_append,
    List.append_assoc]

/-! ## Repeated items -/

/-- No item is equal to an earlier one. -/
def Distinct (items : List Value) : Prop :=
  items.Pairwise fun earlier later => earlier.equal later = false

instance (items : List Value) : Decidable (Distinct items) :=
  inferInstanceAs (Decidable (List.Pairwise _ items))

/-- The items of a list that are new to another one. -/
def newTo (current added : List Value) : List Value :=
  added.filter fun item => !item.occursIn current

/-- New items differ from all of the list that they continue. -/
theorem distinct_accumulate_iff :
    Distinct (accumulate current added) ↔
      Distinct current ∧ Distinct (newTo current added) := by
  have apart : ∀ earlier ∈ current, ∀ later ∈ newTo current added,
      earlier.equal later = false := by
    intro earlier before later behind
    have new := (List.mem_filter.mp behind).2
    rw [Bool.not_eq_true', ← Bool.not_eq_true, occursIn_iff] at new
    rw [← Bool.not_eq_true]
    exact fun same => new ⟨earlier, before, same⟩
  rw [Distinct, accumulate, List.pairwise_append]
  exact and_congr_right fun _ => and_iff_left apart

/-- Where both trees list excludes, the merged list starts with those of the
base and has the items of both lists and no others.  If no item of the base is
repeated, then none is in the merged list exactly if none is among the new ones
of the other list. -/
theorem excludes_unite {base override : Entries} {front : List String}
    (plain : (table base).IsPlain) (plainOverride : (table override).IsPlain)
    (listed : (table base).at? (front ++ ["exclude"]) = some (.list current))
    (listedToo : (table override).at? (front ++ ["exclude"]) = some (.list added))
    (distinct : Distinct current) :
    ∃ merged, (table (base.merge override)).at? (front ++ ["exclude"]) =
        some (.list merged) ∧
      current <+: merged ∧
      (∀ item ∈ current ++ added, item.occursIn merged = true) ∧
      (∀ item ∈ merged, item ∈ current ++ added) ∧
      (Distinct merged ↔ Distinct (newTo current added)) := by
  refine ⟨accumulate current added, ?_, List.prefix_append _ _, ?_, ?_, ?_⟩
  · rw [at?_merge_of_override front plain plainOverride listedToo, listed]
    exact congrArg some (overriddenBy_exclude current added)
  · intro item member
    rcases List.mem_append.mp member with before | behind
    · exact occursIn_of_mem (List.mem_append_left _ before)
    · exact occursIn_accumulate_of_mem behind
  · intro item member
    rcases mem_accumulate_iff.mp member with before | ⟨behind, -⟩
    · exact List.mem_append_left _ before
    · exact List.mem_append_right _ behind
  · rw [distinct_accumulate_iff, and_iff_right distinct]

/-- A number that is equal to a truth value of the base is no new item. -/
theorem excludes_unite_below_sections :
    let inSection (patterns : List Value) : Entries :=
      [(.text "linters", .table [(.text "Own",
        .table [(.text "exclude", .list patterns)])])]
    let base := inSection [.text "a", .bool true]
    let override := inSection [.text "b", .int 1, .text "a", .text "c"]
    let merged : List Value := [.text "a", .bool true, .text "b", .text "c"]
    (table (base.merge override)).at? ["linters", "Own", "exclude"] =
      some (.list merged) ∧ Distinct merged := by
  intro inSection base override merged
  have plain {patterns : List Value} (plainItems : ArePlain patterns) :
      (table (inSection patterns)).IsPlain := by
    simpa [inSection, IsPlain, IsPlainTable, Entries.named?, Entries.get?]
  obtain ⟨united, found, -, -, -, distinct⟩ := @excludes_unite _ _ base override
    ["linters", "Own"] (plain (by simp [ArePlain, IsPlain]))
    (plain (by simp [ArePlain, IsPlain])) rfl rfl (by decide)
  obtain rfl : united = merged := by
    cases found
    rfl
  exact ⟨found, distinct.mpr (by decide)⟩

/-- An item that is new to the base is taken as often as it is repeated. -/
theorem excludes_repeat :
    let base : Entries := [(.text "exclude", .list [])]
    let override : Entries := [(.text "exclude", .list [.text "b", .text "b"])]
    (table base).IsPlain ∧ (table override).IsPlain ∧
    (table base).at? ["exclude"] = some (.list []) ∧ Distinct [] ∧
    (table override).at? ["exclude"] = some (.list [.text "b", .text "b"]) ∧
    (table (base.merge override)).at? ["exclude"] =
      some (.list [.text "b", .text "b"]) ∧
    ¬Distinct [.text "b", .text "b"] := by
  refine ⟨?_, ?_, rfl, by decide, rfl, rfl, by decide⟩
  · simp [IsPlain, IsPlainTable, ArePlain, Entries.named?, Entries.get?]
  · simp [IsPlain, IsPlainTable, ArePlain, Entries.named?, Entries.get?]

end Value

end TemplateLint
