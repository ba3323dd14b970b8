import TemplateLint.Proofs.Config.Switches

/-!
# Malformed configurations

A value of the wrong kind in a configuration counts as missing if it is empty.
Otherwise nothing checks it in the place of a table, nor global excludes
without items, so looking into it breaks off.  Only the excludes that reach
the options of a linter are checked there.
-/

namespace TemplateLint

/-- Something that is no table stands under a name and is not empty. -/
def Entries.Blocks (entries : Entries) (name : String) : Prop :=
  ∃ value, RunnerConfig.given? entries name = some value ∧
    ∀ inner, value ≠ .table inner

/-- The excludes are no list of texts, and not empty. -/
def Entries.Mislists (entries : Entries) : Prop :=
  ∀ patterns : List String,
    (RunnerConfig.given? entries "exclude").getD (.list []) ≠
      .list (patterns.map .text)

namespace RunnerConfig

variable {config : RunnerConfig} {entries : Entries} {name : String}
  {error : ConfigError}

/-! ## Looking into values -/

theorem lookInto_eq_error_iff :
    lookInto ((given? entries name).getD (.table [])) = .error error ↔
      entries.Blocks name ∧ error = .notTable := by
  rw [Entries.Blocks]
  cases given? entries name with
  | none => simp [lookInto]
  | some value => cases value <;> simp [lookInto, eq_comm]

/-- The section of a linter, or the table of all sections, is blocked. -/
def BlocksSection (config : RunnerConfig) (name : String) : Prop :=
  config.entries.Blocks "linters" ∨
    (config.entries.tableAt "linters").Blocks name

theorem section?_eq_error_iff :
    config.section? name = .error error ↔
      config.BlocksSection name ∧ error = .notTable := by
  rw [section?, linters, BlocksSection]
  cases all : lookInto ((given? config.entries "linters").getD (.table [])) with
  | error other =>
      obtain ⟨blocks, rfl⟩ := lookInto_eq_error_iff.mp all
      simp [bind, Except.bind, blocks, eq_comm]
  | ok sections =>
      have free : ¬config.entries.Blocks "linters" := by
        intro blocks
        rw [lookInto_eq_error_iff.mpr ⟨blocks, rfl⟩] at all
        contradiction
      rw [tableAt_of_lookInto all, or_iff_right free]
      exact lookInto_eq_error_iff

/-- The global excludes have no items and are not empty. -/
def NoItems (config : RunnerConfig) : Prop :=
  ∃ value, given? config.entries "exclude" = some value ∧ value.items? = none

theorem globalExclude_eq_error_iff :
    config.globalExclude = .error error ↔
      config.NoItems ∧ error = .noItems := by
  rw [globalExclude, NoItems]
  cases given? config.entries "exclude" with
  | none => simp
  | some value => cases items : value.items? <;> simp [items, eq_comm]

/-- The options of a linter cannot even be collected: its section is blocked,
or its list of excludes is to be continued by global ones without items. -/
def Breaks (config : RunnerConfig) (name : String) : Prop :=
  config.BlocksSection name ∨
    config.NoItems ∧ ∃ items,
      (given? (config.writtenSection name) "exclude").getD (.list []) =
        .list items

theorem error_of_sectionWithExcludes
    (broken : config.sectionWithExcludes name = .error error) :
    error = .notTable ∨ error = .noItems := by
  rw [sectionWithExcludes] at broken
  cases written : config.section? name with
  | error other =>
      obtain ⟨-, rfl⟩ := section?_eq_error_iff.mp written
      rw [written] at broken
      exact .inl (Except.error.inj broken).symm
  | ok own =>
      rw [written] at broken
      cases global : config.globalExclude with
      | error other =>
          obtain ⟨-, rfl⟩ := globalExclude_eq_error_iff.mp global
          simp only [bind, Except.bind, global] at broken
          split at broken
          · exact .inr (Except.error.inj broken).symm
          · contradiction
      | ok shared =>
          simp only [bind, Except.bind, global] at broken
          split at broken <;> contradiction

theorem breaks_iff :
    config.Breaks name ↔
      ∃ error, config.sectionWithExcludes name = .error error := by
  rw [Breaks, sectionWithExcludes]
  cases written : config.section? name with
  | error error =>
      have blocks := (section?_eq_error_iff.mp written).1
      exact iff_of_true (.inl blocks) ⟨error, rfl⟩
  | ok own =>
      have free : ¬config.BlocksSection name := by
        intro blocks
        rw [section?_eq_error_iff.mpr ⟨blocks, rfl⟩] at written
        contradiction
      rw [or_iff_right free, writtenSection_of_section? written]
      cases global : config.globalExclude with
      | error error =>
          have noItems := (globalExclude_eq_error_iff.mp global).1
          simp only [bind, Except.bind, noItems, true_and]
          cases (given? own "exclude").getD (.list []) <;>
            simp [pure, Except.pure]
      | ok shared =>
          have hasItems : ¬config.NoItems := by
            intro noItems
            rw [globalExclude_eq_error_iff.mpr ⟨noItems, rfl⟩] at global
            contradiction
          simp only [bind, Except.bind, hasItems, false_and, false_iff]
          cases (given? own "exclude").getD (.list []) <;>
            simp [pure, Except.pure]

/-! ## Options under malformed values -/

section Options

variable {linterClass : LinterClass} {options : LinterConfig}

theorem forLinter_of_breaks
    (found : config.registry.find? name = some linterClass)
    (breaks : config.Breaks linterClass.name) :
    ∃ error, config.forLinter name = .error error ∧
      (error = .notTable ∨ error = .noItems) := by
  obtain ⟨error, broken⟩ := breaks_iff.mp breaks
  refine ⟨error, ?_, error_of_sectionWithExcludes broken⟩
  rw [forLinter_of_found found, broken]
  rfl

/-- Once they are collected, the options of a linter are valid, or an invalid
one is reported. -/
theorem forLinter_of_not_breaks
    (found : config.registry.find? name = some linterClass)
    (collects : ¬config.Breaks linterClass.name) :
    (∃ options, config.forLinter name = .ok options) ∨
      ∃ error, config.forLinter name =
        .error (.invalidOption linterClass.name error) := by
  cases collected : config.sectionWithExcludes linterClass.name with
  | error error => exact absurd (breaks_iff.mpr ⟨error, collected⟩) collects
  | ok entries =>
      rw [forLinter_of_entries found collected]
      cases LinterConfig.resolve linterClass.schema entries with
      | error error => exact .inr ⟨error, rfl⟩
      | ok options => exact .inl ⟨options, rfl⟩

theorem not_breaks_of_resolved
    (found : config.registry.find? name = some linterClass)
    (resolved : config.forLinter name = .ok options) :
    ¬config.Breaks linterClass.name := by
  intro breaks
  obtain ⟨error, broken, -⟩ := forLinter_of_breaks found breaks
  rw [broken] at resolved
  contradiction

/-- Excludes that are accepted are texts in a list, in a plain tree. -/
theorem eq_list_of_textList {value : Value} {patterns : List String}
    (plain : value.IsPlain)
    (accepted : OptionValue.textList name value = .ok patterns) :
    value = .list (patterns.map .text) := by
  cases value with
  | list items => exact congrArg _ (LinterConfig.eq_map_text_of_texts accepted)
  | tuple items => contradiction
  | _ => contradiction

theorem isPlainTable_tableAt (plain : Value.IsPlainTable entries) :
    Value.IsPlainTable (entries.tableAt name) := by
  rw [Entries.tableAt]
  cases named : entries.named? name with
  | none => trivial
  | some value =>
      have plainValue : value.IsPlain := Value.isPlain_of_named? plain named
      cases value with
      | table inner => exact plainValue
      | mapping inner => contradiction
      | _ => trivial

theorem named?_of_given? {value : Value}
    (given : given? entries name = some value) :
    entries.named? name = some value :=
  (Option.filter_eq_some_iff.mp given).1

/-- The entries of a linter are its section.  Its list of excludes is
continued, and other excludes stay. -/
theorem eq_of_sectionWithExcludes
    (collected : config.sectionWithExcludes name = .ok entries) :
    let own := config.writtenSection name
    (∃ items shared, (given? own "exclude").getD (.list []) = .list items ∧
        config.globalExclude = .ok shared ∧
        entries = own.put Value.excludeKey (.list (items ++ shared))) ∨
      ∃ value, given? own "exclude" = some value ∧
        (∀ items, value ≠ .list items) ∧ entries = own := by
  intro own
  rw [sectionWithExcludes] at collected
  cases written : config.section? name with
  | error error =>
      rw [written] at collected
      contradiction
  | ok found =>
      obtain rfl : own = found := writtenSection_of_section? written
      rw [written] at collected
      simp only [bind, Except.bind] at collected
      split at collected
      · rename_i items lists
        cases global : config.globalExclude with
        | error error =>
            rw [global] at collected
            contradiction
        | ok shared =>
            rw [global] at collected
            exact .inl ⟨items, shared, lists, rfl,
              (Except.ok.inj collected).symm⟩
      · rename_i other
        cases given : given? own "exclude" with
        | none => exact absurd (by rw [given]; rfl) (other [])
        | some value =>
            rw [given] at other
            exact .inr ⟨value, rfl, other, (Except.ok.inj collected).symm⟩

/-- A linter that has options excludes what is listed in its section and among
the global excludes, which have no items but texts. -/
theorem excludes_of_resolved (plain : config.IsPlain)
    (found : config.registry.find? name = some linterClass)
    (resolved : config.forLinter name = .ok options) :
    ∃ patterns shared : List String,
      (given? (config.writtenSection linterClass.name) "exclude").getD
          (.list []) = .list (patterns.map .text) ∧
      config.globalExclude = .ok (shared.map .text) ∧
      options.exclude = patterns ++ shared := by
  have collects := not_breaks_of_resolved found resolved
  cases collected : config.sectionWithExcludes linterClass.name with
  | error error => exact absurd (breaks_iff.mpr ⟨error, collected⟩) collects
  | ok entries =>
      have accepted : LinterConfig.excludeOf entries = .ok options.exclude := by
        rw [forLinter_of_entries found collected] at resolved
        cases valid : LinterConfig.resolve linterClass.schema entries with
        | error error =>
            rw [valid] at resolved
            contradiction
        | ok given =>
            rw [valid] at resolved
            obtain rfl := Except.ok.inj resolved
            exact (LinterConfig.resolve_eq_ok_iff.mp valid).2.1
      rcases eq_of_sectionWithExcludes collected with
        ⟨items, shared, lists, global, rfl⟩ | ⟨value, given, noList, rfl⟩
      · -- the texts of both lists are those of the list they make
        rw [LinterConfig.excludeOf, Value.excludeKey, Entries.named?_put_self]
          at accepted
        have both := LinterConfig.eq_map_text_of_texts accepted
        obtain ⟨patterns, added, excluded, ofOwn, ofGlobal⟩ :=
          List.map_eq_append_iff.mp both.symm
        exact ⟨patterns, added, by rw [lists, ofOwn], by rw [global, ofGlobal],
          excluded⟩
      · have plainOwn : Value.IsPlainTable
            (config.writtenSection linterClass.name) :=
          isPlainTable_tableAt (isPlainTable_tableAt plain)
        have named := named?_of_given? given
        rw [LinterConfig.excludeOf, named] at accepted
        exact absurd (eq_list_of_textList
          (Value.isPlain_of_named? plainOwn named) accepted) (noList _)

end Options

/-! ## Malformed parts -/

/-- Parts of a configuration that are of the wrong kind and not empty.  Global
excludes that are a text or a table are left out: they have items, which are
texts. -/
inductive Malformed (config : RunnerConfig) : Prop where
  | allSections (blocks : config.entries.Blocks "linters")
  | ownSection {linterClass : LinterClass}
      (registered : linterClass ∈ config.registry.classes)
      (blocks : (config.entries.tableAt "linters").Blocks linterClass.name)
  | ownExcludes {linterClass : LinterClass}
      (registered : linterClass ∈ config.registry.classes)
      (mislists : (config.writtenSection linterClass.name).Mislists)
  | globalExcludes (mislists : config.entries.Mislists)
      (noText : ∀ content,
        given? config.entries "exclude" ≠ some (.text content))
      (noTable : ∀ inner, given? config.entries "exclude" ≠ some (.table inner))

/-- Under malformed parts some registered linter has no options. -/
theorem Malformed.exists_unresolved (malformed : config.Malformed)
    (plain : config.IsPlain) (filled : config.registry.Filled)
    (some_class : config.registry.classes ≠ []) :
    ∃ linterClass ∈ config.registry.classes,
      ∀ options, config.forLinter linterClass.name ≠ .ok options := by
  obtain ⟨first, isFirst⟩ := List.exists_mem_of_ne_nil _ some_class
  cases malformed with
  | allSections blocks =>
      refine ⟨first, isFirst, ?_⟩
      intro options resolved
      exact not_breaks_of_resolved (filled.find?_name isFirst) resolved
        (.inl (.inl blocks))
  | @ownSection linterClass registered blocks =>
      refine ⟨linterClass, registered, ?_⟩
      intro options resolved
      exact not_breaks_of_resolved (filled.find?_name registered) resolved
        (.inl (.inr blocks))
  | @ownExcludes linterClass registered mislists =>
      refine ⟨linterClass, registered, ?_⟩
      intro options resolved
      obtain ⟨patterns, -, lists, -⟩ := excludes_of_resolved plain
        (filled.find?_name registered) resolved
      exact mislists patterns lists
  | globalExcludes mislists noText noTable =>
      refine ⟨first, isFirst, ?_⟩
      intro options resolved
      obtain ⟨-, shared, -, global, -⟩ := excludes_of_resolved plain
        (filled.find?_name isFirst) resolved
      rw [globalExclude] at global
      cases given : given? config.entries "exclude" with
      | none => exact mislists [] (by rw [given]; rfl)
      | some value =>
          have plainValue : value.IsPlain :=
            Value.isPlain_of_named? plain (named?_of_given? given)
          rw [given] at global
          cases value with
          | text content => exact noText content given
          | table inner => exact noTable inner given
          | list items =>
              obtain rfl : items = shared.map .text := Except.ok.inj global
              exact mislists shared (by rw [given]; rfl)
          | _ => contradiction

/-- What keeps the options of a registered linter from being collected is
malformed. -/
theorem malformed_of_breaks {linterClass : LinterClass}
    (registered : linterClass ∈ config.registry.classes)
    (breaks : config.Breaks linterClass.name) : config.Malformed := by
  rcases breaks with (blocks | blocks) | ⟨⟨value, given, noItems⟩, -⟩
  · exact .allSections blocks
  · exact .ownSection registered blocks
  · refine .globalExcludes ?_ ?_ ?_
    · intro patterns lists
      rw [given, Option.getD_some] at lists
      subst lists
      contradiction
    · intro content text
      rw [given, Option.some.injEq] at text
      subst text
      contradiction
    · intro inner table
      rw [given, Option.some.injEq] at table
      subst table
      contradiction

/-- Global excludes that a linter would refuse for an item are malformed. -/
theorem malformed_of_notText {key : String} (plain : config.IsPlain)
    (refused : LinterConfig.excludeOf config.entries =
      .error ⟨key, .notText⟩) : config.Malformed := by
  rw [LinterConfig.excludeOf] at refused
  cases named : config.entries.named? "exclude" with
  | none =>
      rw [named] at refused
      contradiction
  | some value =>
      rw [named] at refused
      have plainValue : value.IsPlain := Value.isPlain_of_named? plain named
      cases value with
      | list items =>
          have some_item : items ≠ [] := by
            rintro rfl
            contradiction
          have given : given? config.entries "exclude" = some (.list items) := by
            rw [given?, named, Option.filter_some,
              if_pos (by simpa [Value.isTruthy] using some_item)]
          refine .globalExcludes ?_ (by simp [given]) (by simp [given])
          intro patterns same
          rw [given, Option.getD_some, Value.list.injEq] at same
          subst same
          simp [OptionValue.textList, LinterConfig.texts_map_text] at refused
      | tuple items => contradiction
      | _ => simp [OptionValue.textList] at refused

end RunnerConfig

end TemplateLint
