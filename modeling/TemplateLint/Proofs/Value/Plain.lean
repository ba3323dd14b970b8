import TemplateLint.Value.Plain

/-!
# Trees in plain form

In a plain tree every mapping is a plain table, its keys are different texts,
and there are no tuples.  Bringing a value into plain form gives a plain tree
and leaves plain trees as they are.
-/

namespace TemplateLint

namespace Value

/-! ## Equality -/

/-- Only a text is equal to a text. -/
@[simp] theorem equal_text_iff {value : Value} {name : String} :
    value.equal (.text name) = true ↔ value = .text name := by
  cases value <;> simp [equal, equalScalars, toInt?]

mutual

theorem equal_self : (value : Value) → value.equal value = true
  | .null => rfl
  | .bool _ => by simp [equal, equalScalars, toInt?]
  | .int _ => by simp [equal, equalScalars, toInt?]
  | .float _ => by simp [equal, equalScalars, Binary64.equal]
  | .text _ => by simp
  | .date _ => by simp [equal, equalScalars]
  | .time _ => by simp [equal, equalScalars]
  | .moment instant => by
      simp only [equal, equalScalars, Moment.equal]
      cases instant.offset <;> simp
  | .list items => by rw [equal]; exact equalItems_self items
  | .tuple items => by rw [equal]; exact equalItems_self items
  | .table entries => by
      simpa [equal] using equalEntries_of_subset entries fun _ member => member
  | .mapping entries => by
      simpa [equal] using equalEntries_of_subset entries fun _ member => member

theorem equalItems_self : (items : List Value) → equalItems items items = true
  | [] => rfl
  | item :: later => by
      rw [equalItems, equal_self item, equalItems_self later]
      rfl

theorem equalEntries_of_subset {others : Entries} :
    (entries : List (Value × Value)) → entries ⊆ others →
      equalEntries entries others = true
  | [], _ => rfl
  | (key, value) :: later, subset => by
      have here : others.any (fun other =>
          equal key other.1 && equal value other.2) = true :=
        List.any_eq_true.mpr ⟨(key, value), subset (.head _), by
          simp [equal_self key, equal_self value]⟩
      rw [equalEntries, here]
      exact equalEntries_of_subset later fun _ member => subset (.tail _ member)

end

end Value

/-! ## Entries under text keys -/

namespace Entries

variable {entries : Entries} {name asked : String} {key value other : Value}

theorem named?_cons_self :
    named? ((.text name, value) :: entries) name = some value := by
  simp [named?, get?]

theorem named?_cons_of_ne (different : key ≠ .text name) :
    named? ((key, value) :: entries) name = named? entries name := by
  have unequal : ¬key.equal (.text name) = true := by
    rwa [Value.equal_text_iff]
  simp [named?, get?, unequal]

theorem named?_eq_none_iff :
    entries.named? name = none ↔ ∀ entry ∈ entries, entry.1 ≠ .text name := by
  simp [named?, get?]

theorem named?_append_of_eq_none {earlier : Entries}
    (new : earlier.named? name = none) (later : Entries) :
    named? (earlier ++ later) name = later.named? name := by
  rw [named?, get?, Option.map_eq_none_iff] at new
  rw [named?, get?, List.find?_append, new, Option.none_or]
  rfl

theorem put_cons_self :
    put ((.text name, other) :: entries) (.text name) value =
      (.text name, value) :: entries := by
  simp [put]

theorem put_cons_of_ne (different : key ≠ .text name) :
    put ((key, other) :: entries) (.text name) value =
      (key, other) :: put entries (.text name) value := by
  have unequal : ¬key.equal (.text name) = true := by
    rwa [Value.equal_text_iff]
  rw [put, if_neg unequal]

theorem named?_put_self (entries : Entries) :
    named? (entries.put (.text name) value) name = some value := by
  induction entries with
  | nil => exact named?_cons_self
  | cons entry entries induction =>
      obtain ⟨key, other⟩ := entry
      by_cases here : key = .text name
      · rw [here, put_cons_self, named?_cons_self]
      · rw [put_cons_of_ne here, named?_cons_of_ne here, induction]

theorem named?_put_of_ne (entries : Entries) (different : name ≠ asked) :
    named? (entries.put (.text name) value) asked = entries.named? asked := by
  have unequal : Value.text name ≠ .text asked := by simpa using different
  induction entries with
  | nil => exact named?_cons_of_ne unequal
  | cons entry entries induction =>
      obtain ⟨key, other⟩ := entry
      by_cases here : key = .text name
      · rw [here, put_cons_self, named?_cons_of_ne unequal,
          named?_cons_of_ne unequal]
      · rw [put_cons_of_ne here]
        by_cases there : key = .text asked
        · rw [there, named?_cons_self, named?_cons_self]
        · rw [named?_cons_of_ne there, named?_cons_of_ne there, induction]

theorem put_of_named?_eq_some (found : entries.named? name = some value) :
    entries.put (.text name) value = entries := by
  induction entries with
  | nil => cases found
  | cons entry entries induction =>
      obtain ⟨key, other⟩ := entry
      by_cases here : key = .text name
      · subst here
        rw [named?_cons_self] at found
        cases found
        exact put_cons_self
      · rw [named?_cons_of_ne here] at found
        rw [put_cons_of_ne here, induction found]

/-- A new key comes last. -/
theorem put_of_named?_eq_none (new : entries.named? name = none) :
    entries.put (.text name) value = entries ++ [(.text name, value)] := by
  induction entries with
  | nil => rfl
  | cons entry entries induction =>
      obtain ⟨key, other⟩ := entry
      rw [named?_eq_none_iff, List.forall_mem_cons, ← named?_eq_none_iff] at new
      rw [put_cons_of_ne new.1, induction new.2]
      rfl

end Entries

/-! ## Plain trees -/

namespace Value

mutual

/-- All mappings are plain tables whose keys are different texts, and no tuple
occurs. -/
def IsPlain : Value → Prop
  | .tuple _ | .mapping _ => False
  | .list items => ArePlain items
  | .table entries => IsPlainTable entries
  | _ => True

def ArePlain : List Value → Prop
  | [] => True
  | item :: later => IsPlain item ∧ ArePlain later

def IsPlainTable : List (Value × Value) → Prop
  | [] => True
  | (key, value) :: later =>
      (∃ name, key = .text name ∧ Entries.named? later name = none) ∧
        IsPlain value ∧ IsPlainTable later

end

theorem isPlain_of_named? {entries : Entries} {name : String} {value : Value}
    (plain : IsPlainTable entries) (found : entries.named? name = some value) :
    value.IsPlain := by
  induction entries with
  | nil => cases found
  | cons entry entries induction =>
      obtain ⟨key, other⟩ := entry
      obtain ⟨⟨first, rfl, -⟩, plainValue, plainLater⟩ := plain
      by_cases here : first = name
      · rw [here, Entries.named?_cons_self] at found
        cases found
        exact plainValue
      · rw [Entries.named?_cons_of_ne (by simpa using here)] at found
        exact induction plainLater found

theorem isPlainTable_put {entries : Entries} {name : String} {value : Value}
    (plain : IsPlainTable entries) (plainValue : value.IsPlain) :
    IsPlainTable (entries.put (.text name) value) := by
  induction entries with
  | nil => exact ⟨⟨name, rfl, rfl⟩, plainValue, trivial⟩
  | cons entry entries induction =>
      obtain ⟨key, other⟩ := entry
      obtain ⟨⟨first, rfl, new⟩, plainOther, plainLater⟩ := plain
      by_cases here : first = name
      · subst here
        rw [Entries.put_cons_self]
        exact ⟨⟨first, rfl, new⟩, plainValue, plainLater⟩
      · rw [Entries.put_cons_of_ne (by simpa using here)]
        refine ⟨⟨first, rfl, ?_⟩, plainOther, induction plainLater⟩
        rw [Entries.named?_put_of_ne entries (Ne.symm here), new]

/-- An entry of a plain table has a key that no earlier entry has. -/
theorem plain_of_append_cons {earlier later : Entries} {key value : Value}
    (plain : IsPlainTable (earlier ++ (key, value) :: later)) :
    ∃ name, key = .text name ∧ earlier.named? name = none ∧ value.IsPlain := by
  induction earlier with
  | nil =>
      obtain ⟨⟨name, same, -⟩, plainValue, -⟩ := plain
      exact ⟨name, same, rfl, plainValue⟩
  | cons entry earlier induction =>
      obtain ⟨key', other⟩ := entry
      obtain ⟨⟨first, rfl, new⟩, -, plainLater⟩ := plain
      obtain ⟨name, rfl, newName, plainValue⟩ := induction plainLater
      refine ⟨name, rfl, ?_, plainValue⟩
      have different := Entries.named?_eq_none_iff.mp new (.text name, value)
        (by simp)
      rw [Entries.named?_cons_of_ne (Ne.symm different), newName]

/-! ## Plain form -/

mutual

theorem isPlain_plain : (value : Value) → (plain value).IsPlain
  | .null | .bool _ | .int _ | .float _ | .text _ | .date _ | .time _
  | .moment _ => trivial
  | .list items | .tuple items => arePlain_plainItems items
  | .table entries | .mapping entries =>
      isPlainTable_plainEntries [] entries trivial

theorem arePlain_plainItems : (items : List Value) → ArePlain (plainItems items)
  | [] => trivial
  | item :: later => ⟨isPlain_plain item, arePlain_plainItems later⟩

theorem isPlainTable_plainEntries : (done entries : Entries) →
    IsPlainTable done → IsPlainTable (plainEntries done entries)
  | _, [], plain => plain
  | done, (key, value) :: later, plain =>
      isPlainTable_plainEntries (done.put (.text key.label) (Value.plain value))
        later (isPlainTable_put plain (isPlain_plain value))

end

mutual

theorem plain_of_isPlain : (value : Value) → value.IsPlain → plain value = value
  | .null, _ | .bool _, _ | .int _, _ | .float _, _ | .text _, _ | .date _, _
  | .time _, _ | .moment _, _ => rfl
  | .list items, isPlain => congrArg list (plainItems_of_arePlain items isPlain)
  | .table entries, isPlain =>
      congrArg table (plainEntries_of_isPlainTable [] entries isPlain)

theorem plainItems_of_arePlain : (items : List Value) → ArePlain items →
    plainItems items = items
  | [], _ => rfl
  | item :: later, ⟨plainItem, plainLater⟩ => by
      rw [plainItems, plain_of_isPlain item plainItem,
        plainItems_of_arePlain later plainLater]

theorem plainEntries_of_isPlainTable : (done entries : Entries) →
    IsPlainTable (done ++ entries) → plainEntries done entries = done ++ entries
  | done, [], _ => (List.append_nil done).symm
  | done, (key, value) :: later, isPlain => by
      obtain ⟨name, rfl, new, plainValue⟩ := plain_of_append_cons isPlain
      have rest := plainEntries_of_isPlainTable
        (done ++ [(.text name, value)]) later (by simpa using isPlain)
      rw [plainEntries, label, plain_of_isPlain value plainValue,
        Entries.put_of_named?_eq_none new, rest, List.append_assoc,
        List.singleton_append]

end

end Value

end TemplateLint
