import TemplateLint.Proofs.Value.Accumulation

/-!
# Layers of tables

The empty table is neutral, a layer that is put on a second time changes
nothing, and of three layers any two neighbours may be put together first, as
long as no layer puts a mapping in the place of something else, or a list of
excludes.  A table is determined by the order of its keys and by what stands
under each of them, so the two are followed separately.
-/

namespace TemplateLint

variable {entries base override first second third : Entries} {name : String}
  {value : Value}

/-! ## Keys in their order -/

namespace Entries

/-- The keys of a table in their order. -/
def keys (entries : Entries) : List Value := entries.map (·.1)

theorem occursIn_keys_iff :
    (Value.text name).occursIn entries.keys = true ↔
      entries.named? name ≠ none := by
  rw [Value.occursIn_iff, ne_eq, named?_eq_none_iff]
  simp [keys]

theorem different_of_named?_eq_none (plain : Value.IsPlainTable entries)
    (new : entries.named? name = none) :
    ∀ key ∈ entries.keys, (Value.text name).equal key = false := by
  induction entries with
  | nil => intro key member; cases member
  | cons entry entries induction =>
      obtain ⟨first, other⟩ := entry
      obtain ⟨⟨own, rfl, -⟩, -, plainLater⟩ := plain
      rw [named?_eq_none_iff, List.forall_mem_cons, ← named?_eq_none_iff] at new
      intro key member
      rcases List.mem_cons.mp member with rfl | later
      · rw [← Bool.not_eq_true, Value.equal_text_iff]
        exact Ne.symm new.1
      · exact induction plainLater new.2 key later

theorem keys_put_of_named?_eq_some {old : Value}
    (found : entries.named? name = some old) :
    (entries.put (.text name) value).keys = entries.keys := by
  induction entries with
  | nil => cases found
  | cons entry entries induction =>
      obtain ⟨key, other⟩ := entry
      by_cases here : key = .text name
      · subst here
        rw [put_cons_self]
        rfl
      · rw [named?_cons_of_ne here] at found
        rw [put_cons_of_ne here, keys, List.map_cons]
        exact congrArg (key :: ·) (induction found)

/-- The keys of a merged table are those of the base, then the new ones. -/
theorem keys_merge (plain : Value.IsPlainTable override) :
    (base.merge override).keys = Value.accumulate base.keys override.keys := by
  rw [merge]
  induction override generalizing base with
  | nil => simp [Value.mergeEntries, Value.accumulate, keys]
  | cons entry override induction =>
      obtain ⟨key, value⟩ := entry
      obtain ⟨⟨name, rfl, new⟩, -, plainLater⟩ := plain
      rw [Value.mergeEntries, induction plainLater]
      cases found : base.named? name with
      | some old =>
          have occurs : (Value.text name).occursIn base.keys = true :=
            occursIn_keys_iff.mpr (by simp [found])
          rw [keys_put_of_named?_eq_some found]
          exact (Value.accumulate_cons_of_occursIn occurs).symm
      | none =>
          have absent : (Value.text name).occursIn base.keys = false := by
            rw [← Bool.not_eq_true, occursIn_keys_iff]
            simp [found]
          rw [put_of_named?_eq_none found, keys, List.map_append]
          exact (Value.accumulate_cons_of_new absent
            (different_of_named?_eq_none plainLater new)).symm

/-- A plain table is determined by the order of its keys and by what stands
under each of them. -/
theorem ext_of_plain {first second : Entries} (plain : Value.IsPlainTable first)
    (sameKeys : first.keys = second.keys)
    (same : ∀ name, first.named? name = second.named? name) : first = second := by
  induction first generalizing second with
  | nil => exact (List.map_eq_nil_iff.mp sameKeys.symm).symm
  | cons entry first induction =>
      obtain ⟨key, value⟩ := entry
      obtain ⟨⟨name, rfl, new⟩, -, plainLater⟩ := plain
      cases second with
      | nil => cases sameKeys
      | cons other second =>
          obtain ⟨key, otherValue⟩ := other
          obtain ⟨rfl, sameLater⟩ := List.cons.inj sameKeys
          have sameValue := same name
          rw [named?_cons_self, named?_cons_self, Option.some.injEq] at sameValue
          subst sameValue
          congr 1
          apply induction plainLater sameLater
          intro asked
          by_cases here : name = asked
          · subst here
            have absent : named? second name = none := by
              by_contra found
              rw [← ne_eq, ← occursIn_keys_iff] at found
              rw [keys, ← sameLater] at found
              exact occursIn_keys_iff.mp found new
            rw [new, absent]
          · have different : Value.text name ≠ .text asked := by simpa using here
            have sameAsked := same asked
            rwa [named?_cons_of_ne different, named?_cons_of_ne different] at sameAsked

/-- Induction over the tables that stand in a table. -/
theorem table_induction {motive : Entries → Prop}
    (step : ∀ entries : Entries, (∀ name inner,
      entries.named? name = some (.table inner) → motive inner) → motive entries)
    (entries : Entries) : motive entries := by
  have smaller : ∀ {entries : Entries} {name : String} {value : Value},
      entries.named? name = some value → sizeOf value < sizeOf entries := by
    intro entries name value found
    rw [named?, get?, Option.map_eq_some_iff] at found
    obtain ⟨⟨key, own⟩, found, rfl⟩ := found
    have inside := List.sizeOf_lt_of_mem (List.mem_of_find?_eq_some found)
    rw [Prod.mk.sizeOf_spec] at inside
    show sizeOf own < sizeOf entries
    omega
  induction size : sizeOf entries using Nat.strongRecOn generalizing entries with
  | ind size induction =>
      apply step
      intro name inner found
      have less := smaller found
      rw [size, Value.table.sizeOf_spec] at less
      exact induction (sizeOf inner) (by omega) inner rfl

theorem named?_merge (plain : Value.IsPlainTable override) :
    (base.merge override).named? name =
      match override.named? name with
      | none => base.named? name
      | some value =>
          some (Value.overriddenBy (.text name) (base.named? name) value) :=
  Value.named?_mergeEntries plain

/-! ## A layer that is put on again -/

theorem isPlainTable_merge (plain : Value.IsPlainTable base)
    (plainOverride : Value.IsPlainTable override) :
    Value.IsPlainTable (base.merge override) :=
  Value.isPlainTable_mergeEntries plain override plainOverride

theorem merge_absorbs (plain : Value.IsPlainTable base)
    (plainOverride : Value.IsPlainTable override) :
    (base.merge override).merge override = base.merge override := by
  induction override using table_induction generalizing base with
  | step override induction =>
      apply ext_of_plain
      · exact isPlainTable_merge (isPlainTable_merge plain plainOverride) plainOverride
      · rw [keys_merge plainOverride, keys_merge plainOverride,
          Value.accumulate_absorbs]
      · intro name
        rw [named?_merge plainOverride, named?_merge plainOverride]
        cases given : override.named? name with
        | none => rfl
        | some value =>
            have plainValue := Value.isPlain_of_named? plainOverride given
            have step := Value.overridden_of_named? plain plainOverride given
            simp only [Option.some.injEq]
            generalize held : base.named? name = current at step
            generalize Value.overriddenBy (.text name) current value = result at step
            cases step with
            | merged inner added =>
                exact congrArg Value.table (induction name added given
                  (Value.isPlain_of_named? plain held) plainValue)
            | accumulated before added exclude =>
                rw [exclude, Value.overriddenBy_exclude, Value.accumulate_absorbs]
            | replaced bare => exact Value.overriddenBy_self value plainValue

end Entries

/-! ## Layers put together -/

namespace Value

/-- A tree as it is configured: in plain form, its numbers in stored form. -/
structure IsTree (value : Value) : Prop where
  plain : value.IsPlain
  stored : value.IsStored

theorem exists_list_of_isList {value : Value} (listed : value.isList = true) :
    ∃ items, value = .list items := by
  cases value with
  | list items => exact ⟨items, rfl⟩
  | _ => contradiction

/-- A test accepts all of some values or none. -/
def Alike (test : Value → Bool) (values : List Value) : Prop :=
  (∀ value ∈ values, test value = true) ∨ ∀ value ∈ values, test value = false

/-- The values that some trees hold at a path. -/
def valuesAt (trees : List Value) (path : List String) : List Value :=
  trees.filterMap (·.at? path)

theorem valuesAt_nil (trees : List Value) : valuesAt trees [] = trees :=
  List.filterMap_some

theorem valuesAt_cons (tables : List Entries) (name : String) (path : List String) :
    valuesAt (tables.map table) (name :: path) =
      valuesAt (tables.filterMap (·.named? name)) path := by
  rw [valuesAt, valuesAt, List.filterMap_map, List.filterMap_filterMap]
  rfl

/-- Trees that hold at every path either mappings only or none, and at every
path to excludes either lists only or none.  A path that a single one of them
knows is no restriction. -/
structure Layerable (trees : List Value) : Prop where
  mappings : ∀ path, Alike isMapping (valuesAt trees path)
  excludes : ∀ front, Alike isList (valuesAt trees (front ++ ["exclude"]))

theorem Layerable.alike {trees : List Value} (layerable : Layerable trees) :
    Alike isMapping trees := by
  have here := layerable.mappings []
  rwa [valuesAt_nil] at here

/-- Tables are layerable if the values are that stand under each of the keys,
and if their excludes are alike. -/
theorem layerable_tables_iff {tables : List Entries} :
    Layerable (tables.map table) ↔
      Alike isList (tables.filterMap (·.named? "exclude")) ∧
        ∀ name, Layerable (tables.filterMap (·.named? name)) := by
  constructor
  · intro layerable
    constructor
    · have here := layerable.excludes []
      rwa [List.nil_append, valuesAt_cons, valuesAt_nil] at here
    · intro name
      constructor
      · intro path
        rw [← valuesAt_cons]
        exact layerable.mappings (name :: path)
      · intro front
        rw [← valuesAt_cons]
        exact layerable.excludes (name :: front)
  · rintro ⟨alike, below⟩
    constructor
    · rintro (_ | ⟨name, path⟩)
      · rw [valuesAt_nil]
        left
        intro value member
        obtain ⟨entries, -, rfl⟩ := List.mem_map.mp member
        rfl
      · rw [valuesAt_cons]
        exact (below name).mappings path
    · rintro (_ | ⟨name, front⟩)
      · rwa [List.nil_append, valuesAt_cons, valuesAt_nil]
      · rw [List.cons_append, valuesAt_cons]
        exact (below name).excludes front

/-- Values that are no mappings are layerable. -/
theorem layerable_of_bare {values : List Value}
    (bare : ∀ value ∈ values, value.isMapping = false) : Layerable values := by
  have nothing (name : String) (path : List String) :
      valuesAt values (name :: path) = [] := by
    apply List.filterMap_eq_nil_iff.mpr
    exact fun value member => at?_cons_of_not_mapping (bare value member)
  constructor
  · rintro (_ | ⟨name, path⟩)
    · rw [valuesAt_nil]
      exact .inr bare
    · rw [nothing]
      exact .inl (List.forall_mem_nil _)
  · rintro (_ | ⟨name, front⟩)
    · rw [List.nil_append, nothing]
      exact .inl (List.forall_mem_nil _)
    · rw [List.cons_append, nothing]
      exact .inl (List.forall_mem_nil _)

/-- Only the keys that occur in some tables matter. -/
theorem layerable_of_known {tables : List Entries} (names : List String)
    (known : ∀ entries ∈ tables, ∀ key ∈ Entries.keys entries,
      key.occursIn (names.map text) = true)
    (alike : Alike isList (tables.filterMap (·.named? "exclude")))
    (below : ∀ name ∈ names, Layerable (tables.filterMap (·.named? name))) :
    Layerable (tables.map table) := by
  refine layerable_tables_iff.mpr ⟨alike, fun name => ?_⟩
  by_cases occurs : name ∈ names
  · exact below name occurs
  · have nothing : tables.filterMap (·.named? name) = [] := by
      apply List.filterMap_eq_nil_iff.mpr
      intro entries member
      rw [Entries.named?_eq_none_iff]
      intro entry inside same
      have listed := known entries member entry.1 (List.mem_map_of_mem inside)
      rw [same, occursIn_iff] at listed
      obtain ⟨key, inNames, sameKey⟩ := listed
      obtain ⟨own, inside, rfl⟩ := List.mem_map.mp inNames
      rw [equal_text_iff, text.injEq] at sameKey
      exact occurs (sameKey ▸ inside)
    rw [nothing]
    exact layerable_of_bare (List.forall_mem_nil _)

/-- Two overrides under one key may be put together first if the values are
alike and if it does not matter for tables. -/
theorem overriddenBy_assoc {key first second third : Value} (tree : first.IsTree)
    (treeSecond : second.IsTree) (treeThird : third.IsTree)
    (alike : Alike isMapping [first, second, third])
    (alikeExcludes : key = excludeKey → Alike isList [first, second, third])
    (tables : ∀ before between after : Entries, first = .table before →
      second = .table between → third = .table after →
      (before.merge between).merge after = before.merge (between.merge after)) :
    overriddenBy key (some (overriddenBy key (some first) second)) third =
      overriddenBy key (some first) (overriddenBy key (some second) third) := by
  simp only [Alike, List.mem_cons, List.not_mem_nil, or_false, forall_eq_or_imp,
    forall_eq] at alike alikeExcludes
  rcases alike with ⟨mapped, mappedSecond, mappedThird⟩ | ⟨-, bareSecond, bareThird⟩
  · obtain ⟨before, rfl⟩ := eq_table_of_isMapping tree.plain mapped
    obtain ⟨between, rfl⟩ := eq_table_of_isMapping treeSecond.plain mappedSecond
    obtain ⟨after, rfl⟩ := eq_table_of_isMapping treeThird.plain mappedThird
    exact congrArg table (tables before between after rfl rfl rfl)
  · have replaced (unlisted : key = excludeKey → third.isList = false) :
        overriddenBy key (some (overriddenBy key (some first) second)) third =
          overriddenBy key (some first) (overriddenBy key (some second) third) := by
      have replaces (current : Option Value) :
          overriddenBy key current third = third := by
        apply overriddenBy_of_bare bareThird
        intro exclude listed
        rw [unlisted exclude] at listed
        contradiction
      rw [replaces, replaces, replaces]
    by_cases exclude : key = excludeKey
    · rcases alikeExcludes exclude with ⟨listed, listedSecond, listedThird⟩ |
        ⟨-, -, unlisted⟩
      · obtain ⟨before, rfl⟩ := exists_list_of_isList listed
        obtain ⟨between, rfl⟩ := exists_list_of_isList listedSecond
        obtain ⟨after, rfl⟩ := exists_list_of_isList listedThird
        rw [exclude, overriddenBy_exclude, overriddenBy_exclude,
          overriddenBy_exclude, overriddenBy_exclude,
          accumulate_assoc tree.stored treeThird.stored]
      · exact replaced fun _ => unlisted
    · exact replaced fun same => absurd same exclude

end Value

namespace Entries

theorem areStored_keys (stored : Value.AreStoredEntries entries) :
    Value.AreStored entries.keys := by
  induction entries with
  | nil => trivial
  | cons entry entries induction => exact ⟨stored.1, induction stored.2.2⟩

theorem isTree_of_named? (tree : (Value.table entries).IsTree)
    (found : entries.named? name = some value) : value.IsTree :=
  ⟨Value.isPlain_of_named? tree.plain found, Value.isStored_of_get? tree.stored found⟩

theorem merge_assoc (tree : (Value.table first).IsTree)
    (treeSecond : (Value.table second).IsTree) (treeThird : (Value.table third).IsTree)
    (layerable : Value.Layerable ([first, second, third].map .table)) :
    (first.merge second).merge third = first.merge (second.merge third) := by
  induction third using table_induction generalizing first second with
  | step third induction =>
      have plainLast := isPlainTable_merge treeSecond.plain treeThird.plain
      apply ext_of_plain
      · exact isPlainTable_merge (isPlainTable_merge tree.plain treeSecond.plain)
          treeThird.plain
      · rw [keys_merge treeThird.plain, keys_merge treeSecond.plain,
          keys_merge plainLast, keys_merge treeThird.plain,
          Value.accumulate_assoc (areStored_keys tree.stored)
            (areStored_keys treeThird.stored)]
      · intro name
        obtain ⟨alikeLists, allBelow⟩ := Value.layerable_tables_iff.mp layerable
        have below := allBelow name
        rw [named?_merge treeThird.plain, named?_merge treeSecond.plain,
          named?_merge plainLast, named?_merge treeThird.plain]
        cases given : third.named? name with
        | none => cases second.named? name <;> rfl
        | some last =>
            cases between : second.named? name with
            | none => simp [Value.overriddenBy_none]
            | some middle =>
                cases before : first.named? name with
                | none => simp [Value.overriddenBy_none]
                | some inner =>
                    have held : [first, second, third].filterMap (·.named? name) =
                        [inner, middle, last] := by
                      simp [given, between, before]
                    have alikeExcludes : Value.text name = Value.excludeKey →
                        Value.Alike Value.isList [inner, middle, last] := by
                      rintro ⟨⟩
                      rwa [held] at alikeLists
                    rw [held] at below
                    have treeInner := isTree_of_named? tree before
                    have treeMiddle := isTree_of_named? treeSecond between
                    have treeLast := isTree_of_named? treeThird given
                    refine congrArg some (Value.overriddenBy_assoc treeInner
                      treeMiddle treeLast below.alike alikeExcludes ?_)
                    rintro inner middle last rfl rfl rfl
                    exact induction name last given treeInner treeMiddle treeLast
                      below

/-- Layers of trees obey the laws of a monoid whose elements absorb themselves,
with all keys in the same order: the empty table is neutral on both sides, a
layer that is put on a second time changes nothing, and of three layerable
ones any two neighbours may be put together first. -/
theorem layers_compose {first second third : Entries}
    (tree : (Value.table first).IsTree) (treeSecond : (Value.table second).IsTree)
    (treeThird : (Value.table third).IsTree) :
    first.merge [] = first ∧ merge [] first = first ∧
    (first.merge second).merge second = first.merge second ∧
    (Value.Layerable [.table first, .table second, .table third] →
      (first.merge second).merge third = first.merge (second.merge third)) := by
  refine ⟨rfl, ?_, ?_, ?_⟩
  · exact Value.mergeEntries_nil_left tree.plain
  · exact merge_absorbs tree.plain treeSecond.plain
  · exact merge_assoc tree treeSecond treeThird

/-- Three layers with excludes at two depths; a truth value and a number of
another kind repeat the one of the first layer. -/
theorem layers_compose_over_excludes :
    let section_ (fields : Entries) : Value × Value :=
      (.text "linters", .table [(.text "Own", .table fields)])
    let ownFirst : Entries :=
      [(.text "width", .int 2), (.text "exclude", .list [.text "x"])]
    let ownSecond : Entries := [(.text "exclude", .list [.text "y", .text "x"])]
    let ownThird : Entries :=
      [(.text "width", .int 3), (.text "exclude", .list [.text "y"])]
    let first : Entries :=
      [(.text "exclude", .list [.text "a", .int 1]), section_ ownFirst]
    let second : Entries :=
      [section_ ownSecond, (.text "exclude", .list [.bool true, .text "b"])]
    let third : Entries := [(.text "glob", .text "*"),
      (.text "exclude", .list [.float (.finite false (2 ^ 52) (-52)), .text "c"]),
      section_ ownThird]
    (first.merge second).merge third = first.merge (second.merge third) ∧
    (first.merge second).merge third =
      [(.text "exclude", .list [.text "a", .int 1, .text "b", .text "c"]),
        section_ [(.text "width", .int 3),
          (.text "exclude", .list [.text "x", .text "y"])],
        (.text "glob", .text "*")] ∧
    (first.merge second).merge second = first.merge second := by
  intro section_ ownFirst ownSecond ownThird first second third
  have tree : (Value.table first).IsTree := by
    constructor
    · simp [first, ownFirst, section_, Value.IsPlain, Value.IsPlainTable,
        Value.ArePlain, named?, get?]
    · simp [first, ownFirst, section_, Value.IsStored, Value.AreStoredEntries,
        Value.AreStored]
  have treeSecond : (Value.table second).IsTree := by
    constructor
    · simp [second, ownSecond, section_, Value.IsPlain, Value.IsPlainTable,
        Value.ArePlain, named?, get?]
    · simp [second, ownSecond, section_, Value.IsStored, Value.AreStoredEntries,
        Value.AreStored]
  have treeThird : (Value.table third).IsTree := by
    constructor
    · simp [third, ownThird, section_, Value.IsPlain, Value.IsPlainTable,
        Value.ArePlain, named?, get?]
    · simp [third, ownThird, section_, Value.IsStored, Value.AreStoredEntries,
        Value.AreStored, Binary64.IsStored]
  obtain ⟨-, -, absorbs, composes⟩ := layers_compose tree treeSecond treeThird
  refine ⟨composes ?_, rfl, absorbs⟩
  have own : Value.Layerable ([ownFirst, ownSecond, ownThird].map .table) := by
    apply Value.layerable_of_known ["width", "exclude"] (by decide)
      (.inl (by decide))
    simp only [List.forall_mem_cons]
    exact ⟨Value.layerable_of_bare (by decide), Value.layerable_of_bare (by decide),
      List.forall_mem_nil _⟩
  have sections : Value.Layerable (([ownFirst, ownSecond, ownThird].map
      fun fields : Entries => [(.text "Own", .table fields)]).map .table) := by
    apply Value.layerable_of_known ["Own"] (by decide) (.inl (by decide))
    simp only [List.forall_mem_cons]
    exact ⟨own, List.forall_mem_nil _⟩
  apply @Value.layerable_of_known [first, second, third] ["exclude", "linters", "glob"]
    (by decide) (.inl (by decide))
  simp only [List.forall_mem_cons]
  exact ⟨Value.layerable_of_bare (by decide), sections,
    Value.layerable_of_bare (by decide), List.forall_mem_nil _⟩

end Entries

end TemplateLint
