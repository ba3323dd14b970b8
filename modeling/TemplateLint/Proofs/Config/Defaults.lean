import TemplateLint.Proofs.Config.Switches
import TemplateLint.Proofs.Value.Paths

/-!
# Defaults under a configuration

A configuration that asks for the defaults is put on top of a tree that has
nothing but the flag of every default linter.  What was written stays as it
is, and a flag is added wherever none was written.
-/

namespace TemplateLint

namespace Value

variable {path : List String} {value : Value}

/-- Besides tables, a table of one entry holds what its value holds. -/
theorem at?_singleton_iff {key : String} {inner : Value}
    (bare : value.isMapping = false) :
    (table [(.text key, inner)]).at? path = some value ↔
      ∃ later, path = key :: later ∧ inner.at? later = some value := by
  constructor
  · intro held
    cases path with
    | nil =>
        cases held
        contradiction
    | cons name path =>
        rw [at?_table_cons, Option.bind_eq_some_iff] at held
        obtain ⟨own, named, held⟩ := held
        by_cases same : key = name
        · subst same
          rw [Entries.named?_cons_self, Option.some.injEq] at named
          exact ⟨path, rfl, named ▸ held⟩
        · rw [Entries.named?_cons_of_ne (by simpa using same)] at named
          contradiction
  · rintro ⟨later, rfl, held⟩
    rw [at?_table_cons, Entries.named?_cons_self]
    exact held

theorem at?_bool_iff {flag : Bool} :
    (bool flag).at? path = some value ↔ path = [] ∧ value = bool flag := by
  cases path with
  | nil => simp [at?, eq_comm]
  | cons name path => simp [@at?_cons_of_not_mapping name path (bool flag) rfl]

end Value

namespace RunnerConfig

/-- The value at the end of a path into the tree of a configuration. -/
def at? (config : RunnerConfig) (path : List String) : Option Value :=
  (Value.table config.entries).at? path

variable {config : RunnerConfig} {registry : Registry} {name : String}
  {path : List String} {value : Value}

theorem at?_singleton (config : RunnerConfig) (name : String) :
    config.at? [name] = config.entries.named? name := by
  rw [at?, Value.at?_table_cons]
  exact Option.bind_fun_some _

/-! ## The tree of the defaults -/

section Switches

variable {classes : List LinterClass} {flag : LinterClass → Bool}

theorem exists_class_of_named?_switches
    (named : (switches classes flag).named? name = some value) :
    ∃ linterClass ∈ classes, linterClass.name = name := by
  by_contra missing
  have unnamed : (switches classes flag).named? name = none :=
    named?_switches_eq_none fun linterClass member same =>
      missing ⟨linterClass, member, same.symm⟩
  rw [unnamed] at named
  contradiction

/-- The flags are all that a layer of switches holds besides tables. -/
theorem at?_switches_iff
    (differ : classes.Pairwise fun first second => first.name ≠ second.name)
    (bare : value.isMapping = false) :
    (Value.table (switches classes flag)).at? path = some value ↔
      ∃ linterClass ∈ classes, path = [linterClass.name, "enabled"] ∧
        value = .bool (flag linterClass) := by
  constructor
  · intro held
    cases path with
    | nil =>
        cases held
        contradiction
    | cons name path =>
        rw [Value.at?_table_cons, Option.bind_eq_some_iff] at held
        obtain ⟨own, named, held⟩ := held
        obtain ⟨linterClass, member, rfl⟩ := exists_class_of_named?_switches named
        rw [named?_switches differ member, Option.some.injEq] at named
        subst named
        obtain ⟨later, rfl, held⟩ := (Value.at?_singleton_iff bare).mp held
        obtain ⟨rfl, rfl⟩ := Value.at?_bool_iff.mp held
        exact ⟨linterClass, member, rfl, rfl⟩
  · rintro ⟨linterClass, member, rfl, rfl⟩
    rw [Value.at?_table_cons, named?_switches differ member]
    exact (Value.at?_singleton_iff bare).mpr ⟨[], rfl, rfl⟩

end Switches

theorem defaultLinters_differ :
    LinterClass.builtin.Pairwise fun first second => first.name ≠ second.name := by
  decide

theorem entries_default : (default registry).entries =
    [(.text "linters", .table (switches LinterClass.builtin fun _ => true))] :=
  @entries_ofSections (switches LinterClass.builtin fun _ => true) registry
    (isPlainTable_switches defaultLinters_differ)

/-- The defaults hold the flags of the default linters and nothing else
besides tables. -/
theorem at?_default_iff (bare : value.isMapping = false) :
    (default registry).at? path = some value ↔
      ∃ name ∈ defaultLinters, path = ["linters", name, "enabled"] ∧
        value = .bool true := by
  rw [at?, entries_default, Value.at?_singleton_iff bare]
  simp only [at?_switches_iff defaultLinters_differ bare, defaultLinters,
    List.mem_map]
  constructor
  · rintro ⟨_, rfl, linterClass, member, rfl, flag⟩
    exact ⟨_, ⟨linterClass, member, rfl⟩, rfl, flag⟩
  · rintro ⟨_, ⟨linterClass, member, rfl⟩, rfl, flag⟩
    exact ⟨_, rfl, linterClass, member, rfl, flag⟩

/-- The defaults hold no list. -/
theorem isList_of_at?_default :
    ∀ before ∈ (default registry).at? path, before.isList = false := by
  intro before held
  cases before with
  | list items =>
      obtain ⟨name, -, -, same⟩ := (at?_default_iff rfl).mp held
      cases same
  | _ => rfl

/-! ## A configuration on top of the defaults -/

theorem asksForDefaults_iff : config.asksForDefaults = true ↔
    ∃ flag, config.at? ["EnableDefaultLinters"] = some flag ∧
      flag.isTruthy = true := by
  rw [asksForDefaults, given?, at?_singleton, Option.isSome_iff_exists]
  simp only [Option.filter_eq_some_iff]

theorem at?_overDefaults (plain : config.IsPlain)
    (asks : config.asksForDefaults = true) :
    config.overDefaults.at? path =
      (Value.table ((default config.registry).entries.merge config.entries)).at?
        path := by
  have plainDefault : (default config.registry).IsPlain := isPlain_ofEntries _ _
  rw [overDefaults, if_pos asks, merge_eq_mergeInPlace plainDefault plain]
  rfl

/-- The linters of a configuration are a table of tables, or missing. -/
def TabledSections (config : RunnerConfig) : Prop :=
  ∀ sections ∈ config.at? ["linters"], ∃ entries,
    sections.entries? = some entries ∧
      ∀ entry ∈ entries, entry.2.isMapping = true

theorem TabledSections.isMapping_section (tabled : config.TabledSections)
    (held : config.at? ["linters", name] = some value) : value.isMapping = true := by
  rw [at?, Value.at?_table_cons, Option.bind_eq_some_iff] at held
  obtain ⟨sections, named, held⟩ := held
  obtain ⟨entries, tables, mapped⟩ := tabled sections (at?_singleton .. ▸ named)
  rw [Value.at?, tables, Option.bind_some, Option.bind_eq_some_iff] at held
  obtain ⟨own, found, same⟩ := held
  cases same
  obtain ⟨entry, located, same⟩ := Option.map_eq_some_iff.mp found
  exact same ▸ mapped entry (List.mem_of_find?_eq_some located)

/-- On the way to a missing flag lie tables. -/
theorem TabledSections.isMapping_above_flag (tabled : config.TabledSections)
    (missing : config.at? ["linters", name, "enabled"] = none) :
    ∀ front, front <+: ["linters", name, "enabled"] →
      ∀ above ∈ config.at? front, above.isMapping = true := by
  intro front leads above held
  simp only [List.prefix_cons_iff, List.prefix_nil] at leads
  rcases leads with rfl | ⟨_, rfl, rfl | ⟨_, rfl, rfl | ⟨_, rfl, rfl⟩⟩⟩
  · cases held
    rfl
  · obtain ⟨entries, tables, -⟩ := tabled above held
    rw [Value.isMapping, tables]
    rfl
  · exact tabled.isMapping_section held
  · rw [missing] at held
    contradiction

/-- What was written stays, a flag that was not written is added for every
default linter, and nothing else is added besides tables. -/
theorem overDefaults_keeps_written (config : RunnerConfig) :
    (config.IsPlain → config.TabledSections →
      (∃ flag, config.at? ["EnableDefaultLinters"] = some flag ∧
        flag.isTruthy = true) →
      (∀ path value, value.isMapping = false → config.at? path = some value →
        config.overDefaults.at? path = some value) ∧
      (∀ name ∈ defaultLinters, config.at? ["linters", name, "enabled"] = none →
        config.overDefaults.at? ["linters", name, "enabled"] =
          some (.bool true)) ∧
      ∀ path value, value.isMapping = false →
        config.overDefaults.at? path = some value →
        config.at? path = some value ∨
          config.at? path = none ∧ value = .bool true ∧
            ∃ name ∈ defaultLinters, path = ["linters", name, "enabled"]) ∧
    ((∀ flag ∈ config.at? ["EnableDefaultLinters"], flag.isTruthy = false) →
      config.overDefaults = config ∧ config.overDefaults.equal config = true) := by
  constructor
  · intro plain tabled asks
    have plainDefault : (default config.registry).IsPlain := isPlain_ofEntries _ _
    have read (path : List String) :=
      @at?_overDefaults _ path plain (asksForDefaults_iff.mpr asks)
    refine ⟨?_, ?_, ?_⟩
    · intro path value bare given
      rw [read]
      exact Value.at?_merge_of_bare plainDefault plain bare isList_of_at?_default given
    · intro name member missing
      rw [read, Value.at?_merge_of_base plainDefault plain missing
        (tabled.isMapping_above_flag missing)]
      exact (at?_default_iff rfl).mpr ⟨name, member, rfl, rfl⟩
    · intro path value bare held
      rw [read] at held
      rcases Value.given_or_base_of_at?_merge plainDefault plain bare
        isList_of_at?_default held with given | ⟨missing, added⟩
      · exact .inl given
      · obtain ⟨name, member, same, flag⟩ := (at?_default_iff bare).mp added
        exact .inr ⟨missing, flag, name, member, same⟩
  · intro falsy
    have unasked : ¬config.asksForDefaults = true := by
      rw [asksForDefaults_iff]
      rintro ⟨flag, given, truthy⟩
      rw [falsy flag given] at truthy
      contradiction
    have same : config.overDefaults = config := if_neg unasked
    exact ⟨same, by rw [same]; exact Value.equal_self _⟩

theorem overDefaults_keeps_written_flag :
    let config := ofEntries [(.text "EnableDefaultLinters", .int 1),
      (.text "linters", .table [switched "RightTrim" false,
        (.text "FinalNewline", .table [(.text "present", .bool false)]),
        (.text "Own", .table [])])] .empty
    (config.IsPlain ∧ config.TabledSections ∧
      ∃ flag, config.at? ["EnableDefaultLinters"] = some flag ∧
        flag.isTruthy = true) ∧
    config.overDefaults.at? ["linters", "RightTrim", "enabled"] =
      some (.bool false) ∧
    config.overDefaults.at? ["linters", "FinalNewline", "present"] =
      some (.bool false) ∧
    config.overDefaults.at? ["linters", "FinalNewline", "enabled"] =
      some (.bool true) ∧
    config.overDefaults.at? ["linters", "Own", "enabled"] ≠ some (.bool true) := by
  intro config
  have plain : config.IsPlain := isPlain_ofEntries _ _
  have tabled : config.TabledSections := by
    rintro sections ⟨⟩
    exact ⟨_, rfl, by decide⟩
  have asks : ∃ flag, config.at? ["EnableDefaultLinters"] = some flag ∧
      flag.isTruthy = true := ⟨.int 1, rfl, rfl⟩
  obtain ⟨kept, added, only⟩ :=
    (overDefaults_keeps_written config).1 plain tabled asks
  refine ⟨⟨plain, tabled, asks⟩, kept _ _ rfl rfl, kept _ _ rfl rfl,
    added "FinalNewline" (by decide) rfl, ?_⟩
  intro flagged
  rcases only _ _ rfl flagged with written | ⟨-, -, name, member, same⟩
  · cases written
  · cases same
    revert member
    decide

end RunnerConfig

end TemplateLint
