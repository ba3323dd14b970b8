import TemplateLint.Proofs.Config.Layers
import TemplateLint.Proofs.Engine.Build
import TemplateLint.Proofs.Registry

/-!
# Accumulated excludes

The excludes of a linter come from its own section and from the global list,
and each of the two accumulates over the layers of a configuration.  So a
layer can only exclude more files.
-/

namespace TemplateLint

/-- Entries list patterns as excludes; without the key there are none. -/
def Entries.Lists (entries : Entries) (patterns : List String) : Prop :=
  (entries.named? "exclude").getD (.list []) = .list (patterns.map .text)

/-- The patterns of a list followed by those of another that are not among
them. -/
def accumulated (patterns added : List String) : List String :=
  patterns ++ added.filter (· ∉ patterns)

@[simp] theorem accumulated_nil_left (added : List String) :
    accumulated [] added = added := by
  rw [accumulated, List.nil_append, List.filter_eq_self]
  simp

@[simp] theorem accumulated_nil_right (patterns : List String) :
    accumulated patterns [] = patterns :=
  List.append_nil patterns

/-! ## Options under excludes -/

namespace LinterConfig

variable {schema : OptionSchema} {entries : Entries} {options : LinterConfig}

theorem texts_map_text (key : String) (index : Nat) (contents : List String) :
    OptionValue.texts key index (contents.map .text) = .ok contents := by
  induction contents generalizing index with
  | nil => rfl
  | cons content contents induction =>
      rw [List.map_cons, OptionValue.texts, induction]
      rfl

theorem eq_map_text_of_texts {key : String} {index : Nat} {items : List Value}
    {contents : List String}
    (read : OptionValue.texts key index items = .ok contents) :
    items = contents.map .text := by
  induction items generalizing index contents with
  | nil =>
      cases read
      rfl
  | cons item items induction =>
      cases item with
      | text content =>
          rw [OptionValue.texts] at read
          cases later : OptionValue.texts key (index + 1) items with
          | error error =>
              rw [later] at read
              contradiction
          | ok others =>
              rw [later] at read
              cases read
              rw [List.map_cons, induction later]
      | _ => contradiction

/-- The value of a field does not matter to the check of the fields. -/
theorem checkFields_put {name : String} (field : isField schema name = true)
    (value : Value) :
    checkFields schema (entries.put (.text name) value) =
      checkFields schema entries := by
  induction entries with
  | nil => simp [Entries.put, checkFields, field]
  | cons entry entries induction =>
      obtain ⟨key, other⟩ := entry
      by_cases here : key = .text name
      · subst here
        rw [Entries.put_cons_self, checkFields, checkFields]
      · rw [Entries.put_cons_of_ne here]
        cases key <;> simp only [checkFields, induction]

/-- A schema's own option does not depend on other entries. -/
theorem ownOf_put {name : String} (other : schema.ownKey? ≠ some name)
    (value : Value) :
    ownOf schema (entries.put (.text name) value) = ownOf schema entries := by
  rw [ownOf, ownOf]
  cases own : schema.ownKey? with
  | none => rfl
  | some key =>
      have different : name ≠ key := by
        rintro rfl
        exact other own
      simp only [Entries.named?_put_of_ne entries different]

/-- Options are resolved one by one. -/
theorem resolve_eq_ok_iff :
    resolve schema entries = .ok options ↔
      enabledOf entries = .ok options.enabled ∧
      excludeOf entries = .ok options.exclude ∧
      ownOf schema entries = .ok options.own ∧
      checkFields schema entries = .ok () := by
  rw [resolve]
  cases enabledOf entries with
  | error error => simp [bind, Except.bind]
  | ok enabled =>
      cases excludeOf entries with
      | error error => simp [bind, Except.bind]
      | ok exclude =>
          cases ownOf schema entries with
          | error error => simp [bind, Except.bind]
          | ok own =>
              cases checkFields schema entries with
              | error error => simp [bind, Except.bind]
              | ok _ =>
                  cases options
                  simp [bind, Except.bind, pure, Except.pure]

/-- Other excludes leave all other options as they are. -/
theorem resolve_put_exclude (patterns : List String)
    (resolved : resolve schema entries = .ok options) :
    resolve schema (entries.put Value.excludeKey (.list (patterns.map .text))) =
      .ok { options with exclude := patterns } := by
  obtain ⟨enabled, -, own, fields⟩ := resolve_eq_ok_iff.mp resolved
  rw [resolve_eq_ok_iff]
  refine ⟨?_, ?_, ?_, ?_⟩
  · rw [enabledOf, Value.excludeKey,
      Entries.named?_put_of_ne entries (show "exclude" ≠ "enabled" by decide)]
    exact enabled
  · rw [excludeOf, Value.excludeKey, Entries.named?_put_self]
    exact texts_map_text "exclude" 0 patterns
  · rw [Value.excludeKey, ownOf_put (by cases schema <;> decide)]
    exact own
  · rw [Value.excludeKey, checkFields_put (by simp [isField])]
    exact fields

end LinterConfig

namespace RunnerConfig

/-- The section of a linter, empty if it is missing, where all sections are
tables. -/
def HasSection (config : RunnerConfig) (name : String) (own : Entries) : Prop :=
  ∃ sections : Entries,
    (config.entries.named? "linters").getD (.table []) = .table sections ∧
      (sections.named? name).getD (.table []) = .table own

variable {config base override : RunnerConfig} {entries own : Entries}
  {name : String} {patterns shared : List String}

/-- A value that counts as missing can be taken for what stands in for it. -/
theorem given?_getD {value default : Value}
    (found : (entries.named? name).getD default = value)
    (empty : value.isTruthy = false → value = default) :
    (given? entries name).getD default = value := by
  rw [given?]
  generalize entries.named? name = given at found
  cases given with
  | none => exact found
  | some other =>
      obtain rfl : other = value := found
      cases truthy : other.isTruthy with
      | true => simp [Option.filter, truthy]
      | false =>
          rw [Option.filter_some, if_neg (by simp [truthy])]
          exact (empty truthy).symm

theorem given?_getD_table {inner : Entries}
    (found : (entries.named? name).getD (.table []) = .table inner) :
    (given? entries name).getD (.table []) = .table inner := by
  apply given?_getD found
  intro empty
  simpa [Value.isTruthy] using empty

theorem section?_of_hasSection (has : config.HasSection name own) :
    config.section? name = .ok own := by
  obtain ⟨sections, all, one⟩ := has
  rw [section?, linters, given?_getD_table all]
  simp only [lookInto, bind, Except.bind, given?_getD_table one]

theorem given?_exclude (lists : entries.Lists patterns) :
    (given? entries "exclude").getD (.list []) = .list (patterns.map .text) := by
  apply given?_getD lists
  intro empty
  simpa [Value.isTruthy] using empty

theorem globalExclude_of_lists (lists : config.entries.Lists patterns) :
    config.globalExclude = .ok (patterns.map .text) := by
  have found := given?_exclude lists
  rw [globalExclude]
  cases given : given? config.entries "exclude" with
  | none =>
      rw [given, Option.getD_none, Value.list.injEq] at found
      rw [← found]
  | some value =>
      rw [given, Option.getD_some] at found
      rw [found]
      rfl

theorem sectionWithExcludes_of_lists (has : config.HasSection name own)
    (listsOwn : own.Lists patterns) (lists : config.entries.Lists shared) :
    config.sectionWithExcludes name =
      .ok (own.put Value.excludeKey
        (.list ((patterns ++ shared).map .text))) := by
  rw [sectionWithExcludes, section?_of_hasSection has]
  simp only [bind, Except.bind, given?_exclude listsOwn,
    globalExclude_of_lists lists, List.map_append]
  rfl

variable {linterClass : LinterClass} {options : LinterConfig}

/-- The options of a class are read by its own schema. -/
theorem forLinter_of_found
    (found : config.registry.find? name = some linterClass) :
    config.forLinter name =
      config.sectionWithExcludes linterClass.name >>= fun entries =>
        (LinterConfig.resolve linterClass.schema entries).mapError
          (.invalidOption linterClass.name) := by
  simp only [forLinter, found]
  cases config.sectionWithExcludes linterClass.name with
  | error error => rfl
  | ok entries =>
      simp only [bind, Except.bind]
      cases LinterConfig.resolve linterClass.schema entries <;> rfl

theorem forLinter_of_entries
    (found : config.registry.find? name = some linterClass)
    (collected : config.sectionWithExcludes linterClass.name = .ok entries) :
    config.forLinter name =
      (LinterConfig.resolve linterClass.schema entries).mapError
        (.invalidOption linterClass.name) := by
  rw [forLinter_of_found found, collected]
  rfl

/-- A linter whose section is valid excludes what its section and the global
list name. -/
theorem forLinter_of_lists
    (found : config.registry.find? name = some linterClass)
    (has : config.HasSection linterClass.name own)
    (listsOwn : own.Lists patterns) (lists : config.entries.Lists shared)
    (valid : LinterConfig.resolve linterClass.schema own = .ok options) :
    config.forLinter name =
      .ok { options with exclude := patterns ++ shared } := by
  rw [forLinter_of_entries found
    (sectionWithExcludes_of_lists has listsOwn lists),
    LinterConfig.resolve_put_exclude _ valid]
  rfl

theorem exclude_of_forLinter
    (found : config.registry.find? name = some linterClass)
    (has : config.HasSection linterClass.name own)
    (listsOwn : own.Lists patterns) (lists : config.entries.Lists shared)
    (resolved : config.forLinter name = .ok options) :
    options.exclude = patterns ++ shared := by
  rw [forLinter_of_entries found
    (sectionWithExcludes_of_lists has listsOwn lists)] at resolved
  cases result : LinterConfig.resolve linterClass.schema
      (own.put Value.excludeKey (.list ((patterns ++ shared).map .text))) with
  | error error =>
      rw [result] at resolved
      cases resolved
  | ok given =>
      rw [result] at resolved
      cases resolved
      obtain ⟨-, excludes, -, -⟩ := LinterConfig.resolve_eq_ok_iff.mp result
      rw [LinterConfig.excludeOf, Value.excludeKey, Entries.named?_put_self]
        at excludes
      have same := (LinterConfig.texts_map_text "exclude" 0 _).symm.trans excludes
      exact (Except.ok.inj same).symm

/-! ## Merged layers -/

theorem occursIn_map_text {content : String} {contents : List String} :
    Value.occursIn (.text content) (contents.map .text) =
      decide (content ∈ contents) := by
  rw [Bool.eq_iff_iff]
  simp [Value.occursIn]

theorem accumulate_map_text (patterns added : List String) :
    Value.accumulate (patterns.map .text) (added.map .text) =
      (accumulated patterns added).map .text := by
  rw [Value.accumulate, accumulated, List.map_append, List.filter_map]
  congr 2
  apply List.filter_congr
  intro content _
  simp [occursIn_map_text]

end RunnerConfig

theorem Entries.Lists.merge {base override : Entries}
    {patterns added : List String} (plain : Value.IsPlainTable override)
    (lists : base.Lists patterns) (listsAdded : override.Lists added) :
    (base.merge override).Lists (accumulated patterns added) := by
  rw [Entries.Lists] at *
  rw [Entries.merge, Value.named?_mergeEntries plain]
  cases given : Entries.named? override "exclude" with
  | none =>
      rw [given, Option.getD_none, Value.list.injEq] at listsAdded
      obtain rfl := List.map_eq_nil_iff.mp listsAdded.symm
      simpa using lists
  | some value =>
      rw [given, Option.getD_some] at listsAdded
      subst listsAdded
      cases before : Entries.named? base "exclude" with
      | none =>
          rw [before, Option.getD_none, Value.list.injEq] at lists
          obtain rfl := List.map_eq_nil_iff.mp lists.symm
          simp [Value.overriddenBy_none]
      | some current =>
          rw [before, Option.getD_some] at lists
          subst lists
          simp [Value.overriddenBy, Value.excludeKey,
            RunnerConfig.accumulate_map_text]

/-- Tables under a key are merged in turn. -/
theorem Entries.getD_merge_table {base override inner added : Entries}
    {name : String} (plain : Value.IsPlainTable override)
    (found : (base.named? name).getD (.table []) = .table inner)
    (foundAdded : (override.named? name).getD (.table []) = .table added) :
    ((base.merge override).named? name).getD (.table []) =
      .table (inner.merge added) := by
  rw [Entries.merge, Value.named?_mergeEntries plain]
  cases given : Entries.named? override name with
  | none =>
      rw [given, Option.getD_none, Value.table.injEq] at foundAdded
      subst foundAdded
      exact found
  | some value =>
      rw [given, Option.getD_some] at foundAdded
      subst foundAdded
      have plainAdded : Value.IsPlainTable added :=
        Value.isPlain_of_named? plain given
      cases before : Entries.named? base name with
      | none =>
          rw [before, Option.getD_none, Value.table.injEq] at found
          subst found
          rw [Entries.merge, Value.mergeEntries_nil_left plainAdded]
          rfl
      | some current =>
          rw [before, Option.getD_some] at found
          subst found
          rfl

theorem Value.isPlainTable_of_getD {entries inner : Entries} {name : String}
    (plain : IsPlainTable entries)
    (found : (entries.named? name).getD (.table []) = .table inner) :
    IsPlainTable inner := by
  cases given : entries.named? name with
  | none =>
      rw [given, Option.getD_none, Value.table.injEq] at found
      subst found
      trivial
  | some value =>
      rw [given, Option.getD_some] at found
      subst found
      exact isPlain_of_named? plain given

theorem RunnerConfig.HasSection.merge {base override : RunnerConfig}
    {name : String} {own added : Entries} (plainBase : base.IsPlain)
    (plainOverride : override.IsPlain) (has : base.HasSection name own)
    (hasAdded : override.HasSection name added) :
    (base.merge override).HasSection name (own.merge added) := by
  obtain ⟨sections, all, one⟩ := has
  obtain ⟨addedSections, allAdded, oneAdded⟩ := hasAdded
  rw [merge_eq_mergeInPlace plainBase plainOverride]
  exact ⟨sections.merge addedSections,
    Entries.getD_merge_table plainOverride all allAdded,
    Entries.getD_merge_table
      (Value.isPlainTable_of_getD plainOverride allAdded) one oneAdded⟩

/-! ## Files that a linter looks at -/

namespace Engine

/-- A linter class is among those that look at a file. -/
def Applies (engine : Engine) (workingDirectory : Path) (filename : String)
    (linterClass : LinterClass) : Prop :=
  linterClass ∈ (engine.applicable workingDirectory filename).map (·.1)

/-- A pattern matches the name of a file from the root, or its path as seen
from a base directory. -/
def Matches (workingDirectory : Path) (basePath filename pattern : String) :
    Prop :=
  let absolute := absoluteName workingDirectory filename
  Wildcard.isMatch pattern.toList absolute.toList = true ∨
    Wildcard.isMatch pattern.toList (Path.seenFrom workingDirectory
      (.ofString basePath) (.ofString absolute)).toList = true

variable {config : RunnerConfig} {classes : List LinterClass}
  {basePath : String} {engine : Engine} {linterClass : LinterClass}
  {options : LinterConfig}

theorem skips_eq_false_iff {workingDirectory : Path} {filename : String} :
    engine.skips workingDirectory filename options = false ↔
      ∀ pattern ∈ options.exclude,
        ¬Matches workingDirectory engine.basePath filename pattern := by
  simp [skips, isExcluded, excludes, Matches]

/-- A linter looks at a file exactly if none of its excludes matches. -/
theorem applies_iff (built : build config classes basePath = .ok engine)
    (member : linterClass ∈ classes)
    (resolved : config.forLinter linterClass.name = .ok options)
    {workingDirectory : Path} {filename : String} :
    engine.Applies workingDirectory filename linterClass ↔
      ∀ pattern ∈ options.exclude,
        ¬Matches workingDirectory basePath filename pattern := by
  rw [← (build_eq_ok_iff.mp built).2.2, ← skips_eq_false_iff]
  simp only [Applies, applicable, List.mem_map, List.mem_filter]
  constructor
  · rintro ⟨⟨found, own⟩, ⟨inLinters, looks⟩, rfl⟩
    obtain ⟨-, given⟩ := (mem_linters_iff_of_build built).mp inLinters
    rw [resolved, Except.ok.injEq] at given
    simpa [given] using looks
  · intro looks
    exact ⟨(linterClass, options),
      ⟨(mem_linters_iff_of_build built).mpr ⟨member, resolved⟩, by simp [looks]⟩,
      rfl⟩

end Engine

namespace RunnerConfig

/-- Layers accumulate the excludes of a linter: those of its section over both
layers, then the global ones over both layers.  It looks at the files that
none of these patterns matches, so no layer brings a file back.  Trees are
plain and registries filled however they come about. -/
theorem excludes_accumulate {base override : RunnerConfig}
    {linterClass : LinterClass} {own added : Entries}
    {patterns addedPatterns shared addedShared : List String}
    {options : LinterConfig}
    (plainBase : base.IsPlain) (plainOverride : override.IsPlain)
    (filled : base.registry.Filled)
    (registered : linterClass ∈ base.registry.classes)
    (has : base.HasSection linterClass.name own)
    (hasAdded : override.HasSection linterClass.name added)
    (lists : own.Lists patterns) (listsAdded : added.Lists addedPatterns)
    (listsShared : base.entries.Lists shared)
    (listsAddedShared : override.entries.Lists addedShared)
    (valid : LinterConfig.resolve linterClass.schema (own.merge added) =
      .ok options) :
    (base.merge override).section? linterClass.name = .ok (own.merge added) ∧
    (base.merge override).forLinter linterClass.name =
      .ok { options with
        exclude := patterns ++ addedPatterns.filter (· ∉ patterns)
          ++ (shared ++ addedShared.filter (· ∉ shared)) } ∧
    ∀ (classes : List LinterClass) (basePath : String) (engine : Engine),
      Engine.build (base.merge override) classes basePath = .ok engine →
      linterClass ∈ classes →
      ∀ (workingDirectory : Path) (filename : String),
        (engine.Applies workingDirectory filename linterClass ↔
          ∀ pattern ∈ patterns ++ addedPatterns ++ shared ++ addedShared,
            ¬Engine.Matches workingDirectory basePath filename pattern) ∧
        ∀ (earlier : List LinterClass) (before : Engine),
          Engine.build base earlier basePath = .ok before →
          linterClass ∈ earlier →
          engine.Applies workingDirectory filename linterClass →
          before.Applies workingDirectory filename linterClass := by
  have found : base.registry.find? linterClass.name = some linterClass :=
    filled.find?_name registered
  have hasMerged := has.merge plainBase plainOverride hasAdded
  have plainAdded : Value.IsPlainTable added := by
    obtain ⟨sections, all, one⟩ := hasAdded
    exact Value.isPlainTable_of_getD
      (Value.isPlainTable_of_getD plainOverride all) one
  have listsMerged : (own.merge added).Lists (accumulated patterns addedPatterns) :=
    lists.merge plainAdded listsAdded
  have listsMergedShared : (base.merge override).entries.Lists
      (accumulated shared addedShared) := by
    rw [merge_eq_mergeInPlace plainBase plainOverride]
    exact listsShared.merge plainOverride listsAddedShared
  have resolved :=
    forLinter_of_lists (show (base.merge override).registry.find? _ = _ from found)
      hasMerged listsMerged listsMergedShared valid
  refine ⟨section?_of_hasSection hasMerged, resolved, ?_⟩
  intro classes basePath engine built member workingDirectory filename
  have applies : engine.Applies workingDirectory filename linterClass ↔
      ∀ pattern ∈ patterns ++ addedPatterns ++ shared ++ addedShared,
        ¬Engine.Matches workingDirectory basePath filename pattern := by
    rw [Engine.applies_iff built member resolved]
    apply forall_congr'
    intro pattern
    have same : pattern ∈ accumulated patterns addedPatterns ++
        accumulated shared addedShared ↔
        pattern ∈ patterns ++ addedPatterns ++ shared ++ addedShared := by
      simp only [accumulated, List.mem_append, List.mem_filter, decide_eq_true_eq]
      tauto
    rw [same]
  refine ⟨applies, ?_⟩
  intro earlier before builtBefore memberEarlier looks
  obtain ⟨optionsBefore, resolvedBefore⟩ :=
    Engine.exists_options_of_build builtBefore memberEarlier
  rw [Engine.applies_iff builtBefore memberEarlier resolvedBefore,
    exclude_of_forLinter found has lists listsShared resolvedBefore]
  intro pattern inBefore
  apply applies.mp looks pattern
  rcases List.mem_append.mp inBefore with inOwn | inShared
  · simp [inOwn]
  · simp [inShared]

/-- A pattern of the upper layer alone keeps the linter from a file. -/
theorem excludes_accumulate_over_two_layers :
    let inSection (fields : Entries) : Value × Value :=
      (.text "linters", .table [(.text "FinalNewline", .table fields)])
    let base := ofEntries
      [(.text "exclude", .list [.text "vendor/*"]),
        inSection [(.text "exclude", .list [.text "tmp/*"])]] .builtin
    let override := ofEntries
      [inSection [(.text "exclude", .list [.text "tmp/*", .text "log/*"]),
          (.text "present", .bool false)],
        (.text "exclude", .list [.text "vendor/*", .text "/srv/*"])] .builtin
    (base.merge override).forLinter "FinalNewline" =
      .ok ⟨false, ["tmp/*", "log/*", "vendor/*", "/srv/*"], .present false⟩ ∧
    ∀ engine,
      Engine.build (base.merge override) [.finalNewline] "/work" = .ok engine →
      ¬engine.Applies (.ofString "/work") "log/a" .finalNewline := by
  intro inSection base override
  obtain ⟨-, resolved, engines⟩ := @excludes_accumulate base override
    .finalNewline [(.text "exclude", .list [.text "tmp/*"])]
    [(.text "exclude", .list [.text "tmp/*", .text "log/*"]),
      (.text "present", .bool false)]
    ["tmp/*"] ["tmp/*", "log/*"] ["vendor/*"] ["vendor/*", "/srv/*"]
    ⟨false, ["tmp/*", "log/*"], .present false⟩
    (isPlain_ofEntries _ _) (isPlain_ofEntries _ _) Registry.filled_builtin
    (by simp [base, ofEntries, Registry.builtin, LinterClass.builtin])
    ⟨[(.text "FinalNewline", .table [(.text "exclude", .list [.text "tmp/*"])])],
      rfl, rfl⟩
    ⟨[(.text "FinalNewline", .table
        [(.text "exclude", .list [.text "tmp/*", .text "log/*"]),
          (.text "present", .bool false)])], rfl, rfl⟩
    rfl rfl rfl rfl rfl
  refine ⟨resolved, ?_⟩
  intro engine built applies
  refine ((engines _ _ engine built (.head _) (.ofString "/work") "log/a").1.mp
    applies) "log/*" (by decide) (.inr ?_)
  decide

end RunnerConfig

end TemplateLint
