import TemplateLint.Proofs.Value.Merge

/-!
# Paths into trees

A path is followed from table to table by the keys that it names.  What a
merged tree holds at a path is decided by what the two trees hold there, and
by where the overriding one ends.
-/

namespace TemplateLint.Value

/-- The value at the end of a path. -/
def at? (value : Value) : List String → Option Value
  | [] => some value
  | name :: path =>
      (value.entries?.bind fun entries => Entries.named? entries name).bind
        fun inner => at? inner path

variable {base override : Entries} {name : String} {path : List String}
  {key value found : Value} {current : Option Value}

theorem at?_table_cons (entries : Entries) :
    (table entries).at? (name :: path) =
      (entries.named? name).bind fun inner => inner.at? path :=
  rfl

theorem entries?_eq_none_iff : value.entries? = none ↔ value.isMapping = false := by
  rw [isMapping, Option.isSome_eq_false_iff, Option.isNone_iff_eq_none]

/-- Nothing is found below a value that is no mapping. -/
theorem at?_cons_of_not_mapping (bare : value.isMapping = false) :
    value.at? (name :: path) = none := by
  rw [at?, entries?_eq_none_iff.mpr bare]
  rfl

theorem at?_concat_of_not_mapping (front : List String)
    (bare : value.isMapping = false) : value.at? (front ++ [name]) = none := by
  cases front <;> exact at?_cons_of_not_mapping bare

def isList : Value → Bool
  | list _ => true
  | _ => false

theorem eq_table_of_isMapping (plain : value.IsPlain)
    (mapped : value.isMapping = true) : ∃ entries, value = .table entries := by
  cases value with
  | table entries => exact ⟨entries, rfl⟩
  | mapping entries => exact plain.elim
  | _ => contradiction

/-! ## Overridden values -/

/-- What may stand under a key after an override: a merged table where both
sides have one, an accumulated list of excludes, or else the new value. -/
inductive Overridden (key : Value) : Option Value → Value → Value → Prop
  | merged (inner added : Entries) :
      Overridden key (some (.table inner)) (.table added)
        (.table (inner.merge added))
  | accumulated (before added : List Value) (exclude : key = excludeKey) :
      Overridden key (some (.list before)) (.list added)
        (.list (accumulate before added))
  | replaced {current : Option Value} {value : Value}
      (bare : value.isMapping = true → ∀ before ∈ current, before.isMapping = false) :
      Overridden key current value value

theorem Overridden.of_bare (bare : value.isMapping = false) :
    Overridden key current value value := by
  refine .replaced fun mapped => ?_
  rw [bare] at mapped
  contradiction

theorem overridden (plain : ∀ before ∈ current, before.IsPlain)
    (plainValue : value.IsPlain) :
    Overridden key current value (overriddenBy key current value) := by
  cases value with
  | mapping added => exact plainValue.elim
  | table added =>
      rw [overriddenBy]
      split
      · rename_i inner both
        obtain ⟨before, rfl, entriesEq⟩ := Option.bind_eq_some_iff.mp both
        rw [entries?_eq_some_of_isPlain (plain before rfl) entriesEq]
        exact .merged inner added
      · rename_i nothing
        refine .replaced fun _ before held => ?_
        rw [held, Option.bind_some] at nothing
        exact entries?_eq_none_iff.mp nothing
  | list added =>
      unfold overriddenBy
      split
      · split
        · exact .accumulated _ added (equal_text_iff.mp ‹_›)
        · exact .of_bare rfl
      · exact .of_bare rfl
  | _ => exact .of_bare rfl

theorem overridden_of_named? (plain : IsPlainTable base)
    (plainOverride : IsPlainTable override)
    (named : override.named? name = some value) :
    Overridden (.text name) (base.named? name) value
      (overriddenBy (.text name) (base.named? name) value) :=
  overridden (fun _ held => isPlain_of_named? plain held)
    (isPlain_of_named? plainOverride named)

theorem isMapping_overriddenBy (mapped : value.isMapping = true) :
    (overriddenBy key current value).isMapping = true := by
  cases value with
  | table added | mapping added =>
      rw [overriddenBy]
      split <;> rfl
  | _ => contradiction

/-- What is no mapping and continues no list replaces the value before. -/
theorem overriddenBy_of_bare (bare : value.isMapping = false)
    (apart : key = excludeKey → value.isList = true →
      ∀ before ∈ current, before.isList = false) :
    overriddenBy key current value = value := by
  cases value with
  | table | mapping => contradiction
  | list items =>
      unfold overriddenBy
      split
      · split
        · rename_i exclude
          cases apart (equal_text_iff.mp exclude) rfl _ rfl
        · rfl
      · rfl
  | _ => rfl

theorem overriddenBy_exclude (before added : List Value) :
    overriddenBy excludeKey (some (.list before)) (.list added) =
      .list (accumulate before added) :=
  rfl

/-! ## Merged trees -/

theorem at?_merge_cons (plainOverride : IsPlainTable override) :
    (table (base.merge override)).at? (name :: path) =
      match override.named? name with
      | none => (table base).at? (name :: path)
      | some value =>
          (overriddenBy (.text name) (base.named? name) value).at? path := by
  rw [at?_table_cons, Entries.merge, named?_mergeEntries plainOverride]
  cases Entries.named? override name <;> rfl

/-- Below a key of the overriding tree lies what overrides the base. -/
theorem exists_overridden (plain : IsPlainTable base)
    (plainOverride : IsPlainTable override)
    (named : override.named? name = some value) :
    ∃ result, Overridden (.text name) (base.named? name) value result ∧
      ∀ path, (table (base.merge override)).at? (name :: path) = result.at? path := by
  refine ⟨_, overridden_of_named? plain plainOverride named, ?_⟩
  intro path
  rw [at?_merge_cons plainOverride, named]

/-- Where the overriding tree holds a value, this overrides what the base holds
there. -/
theorem at?_merge_of_override (front : List String)
    (plain : IsPlainTable base) (plainOverride : IsPlainTable override)
    (given : (table override).at? (front ++ [name]) = some value) :
    (table (base.merge override)).at? (front ++ [name]) =
      some (overriddenBy (.text name) ((table base).at? (front ++ [name])) value) := by
  induction front generalizing base override with
  | nil =>
      rw [List.nil_append, at?_table_cons, Option.bind_eq_some_iff] at given
      obtain ⟨inner, named, same⟩ := given
      cases same
      rw [List.nil_append, at?_merge_cons plainOverride, named, at?_table_cons]
      cases Entries.named? base name <;> rfl
  | cons first front induction =>
      rw [List.cons_append, at?_table_cons, Option.bind_eq_some_iff] at given
      obtain ⟨inner, named, later⟩ := given
      obtain ⟨result, step, below⟩ := exists_overridden plain plainOverride named
      rw [List.cons_append, below, at?_table_cons]
      generalize before : base.named? first = current at step
      cases step with
      | merged before added =>
          exact induction (isPlain_of_named? plain before)
            (isPlain_of_named? plainOverride named) later
      | accumulated before added exclude =>
          rw [at?_concat_of_not_mapping front rfl] at later
          contradiction
      | replaced bare =>
          have mapped : inner.isMapping = true := by
            cases mapping : inner.isMapping with
            | true => rfl
            | false =>
                rw [at?_concat_of_not_mapping front mapping] at later
                contradiction
          have nothing : current.bind (fun inner => inner.at? (front ++ [name])) =
              none := by
            rw [Option.bind_eq_none_iff]
            exact fun before held =>
              at?_concat_of_not_mapping front (bare mapped before held)
          rw [nothing, overriddenBy_none, later]

/-- Where the overriding tree holds nothing, the merged tree holds nothing but
what the base holds. -/
theorem at?_of_at?_merge (plain : IsPlainTable base)
    (plainOverride : IsPlainTable override)
    (missing : (table override).at? path = none)
    (held : (table (base.merge override)).at? path = some value) :
    (table base).at? path = some value := by
  induction path generalizing base override with
  | nil => contradiction
  | cons name path induction =>
      cases named : override.named? name with
      | none =>
          rw [at?_merge_cons plainOverride, named] at held
          exact held
      | some inner =>
          obtain ⟨result, step, below⟩ := exists_overridden plain plainOverride named
          rw [at?_table_cons, named, Option.bind_some] at missing
          rw [below] at held
          rw [at?_table_cons]
          generalize before : base.named? name = current at step
          cases step with
          | merged before added =>
              exact induction (isPlain_of_named? plain before)
                (isPlain_of_named? plainOverride named) missing held
          | accumulated before added exclude =>
              cases path with
              | nil => contradiction
              | cons next path =>
                  rw [at?_cons_of_not_mapping rfl] at held
                  contradiction
          | replaced bare =>
              rw [missing] at held
              contradiction

/-- What the base holds is kept where the overriding tree holds nothing but
tables on the way. -/
theorem at?_merge_of_base (plain : IsPlainTable base)
    (plainOverride : IsPlainTable override)
    (missing : (table override).at? path = none)
    (tables : ∀ front, front <+: path →
      ∀ above ∈ (table override).at? front, above.isMapping = true) :
    (table (base.merge override)).at? path = (table base).at? path := by
  induction path generalizing base override with
  | nil => contradiction
  | cons name path induction =>
      cases named : override.named? name with
      | none => rw [at?_merge_cons plainOverride, named]
      | some inner =>
          obtain ⟨result, step, below⟩ := exists_overridden plain plainOverride named
          have mapped : inner.isMapping = true := by
            apply tables [name] (by simp) inner
            rw [at?_table_cons, named]
            rfl
          rw [at?_table_cons, named, Option.bind_some] at missing
          rw [below, at?_table_cons]
          generalize before : base.named? name = current at step
          cases step with
          | merged before added =>
              apply induction (isPlain_of_named? plain before)
                (isPlain_of_named? plainOverride named) missing
              intro front leads above held
              apply tables (name :: front) (List.cons_prefix_cons.mpr ⟨rfl, leads⟩)
              rwa [at?_table_cons, named]
          | accumulated before added exclude => contradiction
          | replaced bare =>
              cases path with
              | nil => contradiction
              | cons next path =>
                  rw [missing, eq_comm, Option.bind_eq_none_iff]
                  exact fun before held =>
                    at?_cons_of_not_mapping (bare mapped before held)

/-! ## Values that are no mappings -/

/-- Over a base without lists a value that is no mapping stays as it is. -/
theorem at?_merge_of_bare (plain : IsPlainTable base)
    (plainOverride : IsPlainTable override) (bare : value.isMapping = false)
    (unlisted : ∀ before ∈ (table base).at? path, before.isList = false)
    (given : (table override).at? path = some value) :
    (table (base.merge override)).at? path = some value := by
  rcases path.eq_nil_or_concat with rfl | ⟨front, name, rfl⟩
  · cases given
    contradiction
  · rw [List.concat_eq_append] at *
    rw [at?_merge_of_override front plain plainOverride given,
      overriddenBy_of_bare bare fun _ _ => unlisted]

/-- Over a base without lists a value that is no mapping comes from one of the
two trees, from the base only where the overriding one holds nothing. -/
theorem given_or_base_of_at?_merge (plain : IsPlainTable base)
    (plainOverride : IsPlainTable override) (bare : value.isMapping = false)
    (unlisted : ∀ before ∈ (table base).at? path, before.isList = false)
    (held : (table (base.merge override)).at? path = some value) :
    (table override).at? path = some value ∨
      (table override).at? path = none ∧ (table base).at? path = some value := by
  cases given : (table override).at? path with
  | none => exact .inr ⟨rfl, at?_of_at?_merge plain plainOverride given held⟩
  | some own =>
      rcases path.eq_nil_or_concat with rfl | ⟨front, name, rfl⟩
      · cases held
        contradiction
      · rw [List.concat_eq_append] at *
        rw [at?_merge_of_override front plain plainOverride given,
          Option.some.injEq] at held
        cases mapped : own.isMapping with
        | true =>
            rw [← held, isMapping_overriddenBy mapped] at bare
            contradiction
        | false =>
            rw [overriddenBy_of_bare mapped fun _ _ => unlisted] at held
            exact .inl (congrArg some held)

end TemplateLint.Value
