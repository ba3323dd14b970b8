import TemplateLint.Proofs.Value.Plain
import TemplateLint.Value.Merge

/-!
# Merging of plain tables

Merging keeps trees plain, decides each key by itself, and does nothing where
a table is merged into itself.
-/

namespace TemplateLint.Value

/-! ## Merged trees are plain -/

theorem arePlain_iff {items : List Value} :
    ArePlain items ↔ ∀ item ∈ items, item.IsPlain := by
  induction items with
  | nil => simp [ArePlain]
  | cons item items induction => simp [ArePlain, induction]

theorem arePlain_accumulate {current added : List Value}
    (plain : ArePlain current) (plainAdded : ArePlain added) :
    ArePlain (accumulate current added) := by
  rw [arePlain_iff] at *
  intro item member
  rcases List.mem_append.mp member with before | behind
  · exact plain item before
  · exact plainAdded item (List.mem_filter.mp behind).1

theorem entries?_eq_some_of_isPlain {value : Value} {entries : Entries}
    (plain : value.IsPlain) (found : value.entries? = some entries) :
    value = .table entries := by
  cases value with
  | table own =>
      cases found
      rfl
  | mapping own => exact plain.elim
  | _ => cases found

mutual

theorem isPlain_overriddenBy {key : Value} {current : Option Value}
    (plainCurrent : ∀ value ∈ current, value.IsPlain) :
    (value : Value) → value.IsPlain → (overriddenBy key current value).IsPlain
  | .null, _ | .bool _, _ | .int _, _ | .float _, _ | .text _, _ | .date _, _
  | .time _, _ | .moment _, _ => trivial
  | .list items, plain => by
      unfold overriddenBy
      split
      · split
        · rename_i before _
          exact arePlain_accumulate (plainCurrent (.list before) rfl) plain
        · exact plain
      · exact plain
  | .table entries, plain => by
      unfold overriddenBy
      split
      · rename_i base found
        obtain ⟨value, known, entriesEq⟩ := Option.bind_eq_some_iff.mp found
        have plainValue := plainCurrent value known
        rw [entries?_eq_some_of_isPlain plainValue entriesEq] at plainValue
        exact isPlainTable_mergeEntries plainValue entries plain
      · exact plain

theorem isPlainTable_mergeEntries {base : Entries} (plainBase : IsPlainTable base) :
    (entries : List (Value × Value)) → IsPlainTable entries →
      IsPlainTable (mergeEntries base entries)
  | [], _ => plainBase
  | (key, value) :: later, ⟨⟨name, same, _⟩, plainValue, plainLater⟩ => by
      subst same
      apply isPlainTable_mergeEntries _ later plainLater
      apply isPlainTable_put plainBase
      apply isPlain_overriddenBy _ value plainValue
      intro current found
      exact isPlain_of_named? plainBase found

end

/-! ## Keys of merged tables -/

theorem overriddenBy_none (key value : Value) :
    overriddenBy key none value = value := by
  cases value <;> rfl

/-- Under a key of the overriding table stands what overrides the base; every
other key keeps its value. -/
theorem named?_mergeEntries {base entries : Entries} {name : String}
    (plain : IsPlainTable entries) :
    Entries.named? (mergeEntries base entries) name =
      match Entries.named? entries name with
      | none => Entries.named? base name
      | some value =>
          some (overriddenBy (.text name) (Entries.named? base name) value) := by
  induction entries generalizing base with
  | nil => rfl
  | cons entry entries induction =>
      obtain ⟨key, value⟩ := entry
      obtain ⟨⟨first, rfl, new⟩, -, plainLater⟩ := plain
      rw [mergeEntries, induction plainLater]
      by_cases here : first = name
      · subst here
        rw [new, Entries.named?_cons_self]
        exact Entries.named?_put_self base
      · rw [Entries.named?_cons_of_ne (by simpa using here),
          Entries.named?_put_of_ne base here]

theorem mergeEntries_nil_left {entries : Entries}
    (plain : IsPlainTable entries) : mergeEntries [] entries = entries := by
  suffices general : ∀ done : Entries, IsPlainTable (done ++ entries) →
      mergeEntries done entries = done ++ entries from general [] plain
  intro done
  induction entries generalizing done with
  | nil => exact fun _ => (List.append_nil done).symm
  | cons entry entries induction =>
      obtain ⟨key, value⟩ := entry
      intro isPlain
      obtain ⟨name, rfl, new, -⟩ := plain_of_append_cons isPlain
      have absent : done.get? (.text name) = none := new
      rw [mergeEntries, absent, overriddenBy_none, Entries.put_of_named?_eq_none new,
        induction plain.2.2 _ (by simpa using isPlain), List.append_assoc,
        List.singleton_append]

/-! ## Merging a table into itself -/

theorem accumulate_self (items : List Value) : accumulate items items = items := by
  have nothing : items.filter (fun item => !item.occursIn items) = [] := by
    rw [List.filter_eq_nil_iff]
    intro item member
    have occurs : item.occursIn items = true :=
      List.any_eq_true.mpr ⟨item, member, equal_self item⟩
    simp [occurs]
  rw [accumulate, nothing, List.append_nil]

mutual

theorem overriddenBy_self {key : Value} : (value : Value) → value.IsPlain →
    overriddenBy key (some value) value = value
  | .null, _ | .bool _, _ | .int _, _ | .float _, _ | .text _, _ | .date _, _
  | .time _, _ | .moment _, _ => rfl
  | .list items, _ => by
      rw [overriddenBy, accumulate_self]
      exact ite_self _
  | .table entries, plain =>
      congrArg table (mergeEntries_suffix [] entries plain)

/-- The entries at the end of a plain table do not change it. -/
theorem mergeEntries_suffix : (earlier later : Entries) →
    IsPlainTable (earlier ++ later) →
      mergeEntries (earlier ++ later) later = earlier ++ later
  | _, [], _ => rfl
  | earlier, (key, value) :: later, plain => by
      obtain ⟨name, rfl, new, plainValue⟩ := plain_of_append_cons plain
      have found : Entries.get? (earlier ++ (.text name, value) :: later)
          (.text name) = some value :=
        (Entries.named?_append_of_eq_none new _).trans Entries.named?_cons_self
      have rest := mergeEntries_suffix (earlier ++ [(.text name, value)]) later
        (by simpa using plain)
      rw [List.append_assoc, List.singleton_append] at rest
      rw [mergeEntries, found, overriddenBy_self value plainValue,
        Entries.put_of_named?_eq_some found, rest]

end

end TemplateLint.Value
