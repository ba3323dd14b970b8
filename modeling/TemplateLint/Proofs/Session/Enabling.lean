import Mathlib.Data.List.Forall2
import TemplateLint.Proofs.Config.Switches
import TemplateLint.Proofs.Session.Stage

/-!
# Linters asked for by an invocation

An invocation that names linters, or asks for all of them, selects exactly
these, whatever its configuration says.  Only an invalid option of a
registered linter, selected or not, keeps it from doing so.
-/

namespace TemplateLint

/-- Filtering by a test that may break off: either it breaks off at an item,
or its answers are those of a pure test. -/
theorem filterM_eq_error_or_ok {Item Error : Type}
    {test : Item → Except Error Bool} {answer : Item → Bool} {items : List Item}
    (answers : ∀ item ∈ items, ∀ result, test item = .ok result →
      result = answer item) :
    (∃ item ∈ items, ∃ error, test item = .error error ∧
      items.filterM test = .error error) ∨
    items.filterM test = .ok (items.filter answer) := by
  -- items are collected in reverse, so the induction carries those kept so far
  suffices collecting : ∀ kept,
      (∃ item ∈ items, ∃ error, test item = .error error ∧
        List.filterAuxM test items kept = .error error) ∨
      List.filterAuxM test items kept =
        .ok ((items.filter answer).reverse ++ kept) by
    rcases collecting [] with ⟨item, member, error, breaks, broken⟩ | complete
    · refine .inl ⟨item, member, error, breaks, ?_⟩
      simp only [List.filterM, broken, bind, Except.bind]
    · refine .inr ?_
      simp only [List.filterM, complete, bind, Except.bind, pure, Except.pure,
        List.append_nil, List.reverse_reverse]
  induction items with
  | nil => exact fun kept => .inr rfl
  | cons item items induction =>
      intro kept
      have later := induction fun other member =>
        answers other (.tail _ member)
      rw [List.filterAuxM]
      cases tested : test item with
      | error error => exact .inl ⟨item, .head _, error, tested, rfl⟩
      | ok result =>
          have same := answers item (.head _) result tested
          subst same
          rcases later (bif answer item then item :: kept else kept) with
            ⟨other, member, error, breaks, broken⟩ | complete
          · exact .inl ⟨other, .tail _ member, error, breaks, broken⟩
          · refine .inr (complete.trans ?_)
            cases holds : answer item <;> simp [holds]

namespace RunnerConfig

variable {config loaded : RunnerConfig}

/-- A configuration gives every registered linter the options that another
one gives it, except that it enables exactly the chosen ones.  This is about
all linters whose sections are tables. -/
def KeepsOptions (config loaded : RunnerConfig)
    (chosen : LinterClass → Prop) : Prop :=
  ∀ linterClass ∈ loaded.registry.classes, ∀ own,
    loaded.section? linterClass.name = .ok own →
    ∃ before after flag,
      loaded.sectionWithExcludes linterClass.name = .ok before ∧
      config.sectionWithExcludes linterClass.name = .ok after ∧
      SameButFlag linterClass.schema before after flag ∧
      (flag = true ↔ chosen linterClass) ∧
      ∀ options, loaded.forLinter linterClass.name = .ok options →
        config.forLinter linterClass.name =
          .ok { options with enabled := flag }

/-- Reading bytes gives a plain tree with the registry at hand. -/
theorem plain_of_read {number : Nat} {bytes : Utf8.Bytes} {registry : Registry}
    (done : read number bytes registry = .ok config) :
    config.IsPlain ∧ config.registry = registry := by
  unfold read at done
  split at done
  · contradiction
  · split at done
    · contradiction
    · contradiction
    · cases done
      exact ⟨isPlain_ofEntries _ _, rfl⟩

theorem registry_overDefaults : config.overDefaults.registry = config.registry := by
  rw [overDefaults]
  split <;> rfl

/-- In a plain tree, excludes that are valid are listed. -/
theorem lists_of_excludeOf {patterns : List String} (plain : config.IsPlain)
    (valid : LinterConfig.excludeOf config.entries = .ok patterns) :
    config.entries.Lists patterns := by
  rw [LinterConfig.excludeOf] at valid
  rw [Entries.Lists]
  cases named : config.entries.named? "exclude" with
  | none =>
      rw [named] at valid
      cases valid
      rfl
  | some value =>
      rw [named] at valid
      have plainValue : value.IsPlain := Value.isPlain_of_named? plain named
      cases value with
      | list items =>
        simp only [OptionValue.textList] at valid
        rw [Option.getD_some, LinterConfig.eq_map_text_of_texts valid]
      | tuple items => contradiction
      | _ => contradiction

end RunnerConfig

namespace Session

open RunnerConfig

variable {workspace : Workspace} {loaded config : RunnerConfig}

theorem plain_of_loadConfig {requested : Option Path}
    (isLoaded : (loadConfig workspace requested).result = .ok loaded) :
    loaded.IsPlain ∧ loaded.registry = workspace.registry := by
  simp only [loadConfig] at isLoaded
  split at isLoaded
  · rename_i bytes held
    rw [readConfig] at isLoaded
    split at isLoaded
    · rename_i config done
      obtain ⟨plain, same⟩ := plain_of_read done
      cases isLoaded
      exact ⟨isPlain_overDefaults plain, registry_overDefaults.trans same⟩
    · contradiction
    · contradiction
  · split at isLoaded
    · contradiction
    · cases isLoaded
      exact ⟨isPlain_ofEntries _ _, rfl⟩

/-- Names are accepted that are the linter names of the classes they find. -/
theorem resolveNames_result_eq_ok_iff {registry : Registry}
    {names : List String} {enabled : List LinterClass} :
    (resolveNames registry names).result = .ok enabled ↔
      List.Forall₂ (fun name linterClass =>
        registry.find? name = some linterClass ∧
          linterClass.linterName = name) names enabled := by
  induction names generalizing enabled with
  | nil =>
      rw [List.forall₂_nil_left_iff]
      exact ⟨fun done => by cases done; rfl, fun none => by rw [none]; rfl⟩
  | cons name names induction =>
      have accepts : ∀ linterClass,
          (registry.find? name).filter (·.linterName = name) =
            some linterClass ↔
          registry.find? name = some linterClass ∧
            linterClass.linterName = name := by
        simp [Option.filter_eq_some_iff]
      rw [resolveNames, List.forall₂_cons_left_iff]
      split
      · rename_i linterClass found
        simp only [Stage.bind_result_eq_ok_iff, induction, ← accepts, found]
        constructor
        · rintro ⟨others, all, done⟩
          cases done
          exact ⟨linterClass, others, rfl, all, rfl⟩
        · rintro ⟨same, others, isSame, all, rfl⟩
          cases isSame
          exact ⟨others, all, rfl⟩
      · rename_i refused
        simp [← accepts, refused]

theorem mem_iff_of_finds {registry : Registry} {names : List String}
    {enabled : List LinterClass} {linterClass : LinterClass}
    (finds : List.Forall₂ (fun name linterClass =>
      registry.find? name = some linterClass ∧
        linterClass.linterName = name) names enabled) :
    linterClass ∈ enabled ↔
      ∃ name ∈ names, registry.find? name = some linterClass := by
  induction finds with
  | nil => simp
  | @cons name first names enabled found _ induction =>
      have here : linterClass = first ↔
          registry.find? name = some linterClass := by
        rw [found.1, Option.some.injEq, eq_comm]
      simp only [List.mem_cons, exists_eq_or_imp, here, induction]

/-! ## Selection under a layer of switches -/

/-- A configuration selects exactly the chosen ones of the registered classes,
each once, in the order of their registration, unless the options of a
registered class are invalid; then the selection fails as such. -/
def Selects (config : RunnerConfig) (chosen : LinterClass → Prop) : Prop :=
  (∃ linterClass ∈ config.registry.classes, ∃ error,
    config.forLinter linterClass.name =
      .error (.invalidOption linterClass.name error) ∧
    selectLinters config = .fail .invalidConfig
      (ConfigError.invalidOption linterClass.name error).message) ∨
  ∃ selected, selectLinters config = .done selected ∧
    selected.Sublist config.registry.classes ∧ selected.Nodup ∧
    ∀ linterClass, linterClass ∈ selected ↔
      linterClass ∈ config.registry.classes ∧ chosen linterClass

section Switched

variable {patterns : List String} {flag : LinterClass → Bool}
  {chosen : LinterClass → Prop} {linterClass : LinterClass}

theorem selects_of_flags (filled : config.registry.Filled)
    (tells : ∀ linterClass ∈ config.registry.classes,
      flag linterClass = true ↔ chosen linterClass)
    (resolves : ∀ linterClass ∈ config.registry.classes,
      (∃ error, config.forLinter linterClass.name =
        .error (.invalidOption linterClass.name error)) ∨
      ∃ options, config.forLinter linterClass.name = .ok options ∧
        options.enabled = flag linterClass) :
    Selects config chosen := by
  have answers : ∀ linterClass ∈ config.registry.classes, ∀ result,
      (config.forLinter linterClass.name).map (·.enabled) = .ok result →
      result = flag linterClass := by
    intro linterClass member result tested
    rcases resolves linterClass member with
      ⟨error, invalid⟩ | ⟨options, resolved, enabled⟩
    · rw [invalid] at tested
      contradiction
    · rw [resolved] at tested
      cases tested
      exact enabled
  rw [Selects, selectLinters]
  rcases filterM_eq_error_or_ok answers with
    ⟨linterClass, member, error, tested, broken⟩ | complete
  · left
    refine ⟨linterClass, member, ?_⟩
    -- the filter breaks off where the options of a class are not resolved
    rcases resolves linterClass member with
      ⟨optionError, invalid⟩ | ⟨options, resolved, -⟩
    · rw [invalid] at tested
      cases tested
      exact ⟨optionError, invalid, by rw [broken]; rfl⟩
    · rw [resolved] at tested
      contradiction
  · right
    refine ⟨_, by rw [complete]; rfl, List.filter_sublist,
      filled.nodup.filter _, ?_⟩
    intro linterClass
    rw [List.mem_filter]
    exact and_congr_right (tells linterClass)

/-- Under a layer of switches every class has its written options with the
flag, or invalid ones. -/
theorem forLinter_merge_switches (flag : LinterClass → Bool)
    (plain : loaded.IsPlain) (filled : loaded.registry.Filled)
    (lists : loaded.entries.Lists patterns)
    (member : linterClass ∈ loaded.registry.classes) :
    let own := loaded.writtenSection linterClass.name
    let after := withShared
      (own.put (.text "enabled") (.bool (flag linterClass)))
      (patterns.map .text)
    let config := loaded.merge
      (ofSections (switches loaded.registry.classes flag) loaded.registry)
    SameButFlag linterClass.schema (withShared own (patterns.map .text)) after
      (flag linterClass) ∧
    config.sectionWithExcludes linterClass.name = .ok after ∧
    config.forLinter linterClass.name =
      (LinterConfig.resolve linterClass.schema after).mapError
        (.invalidOption linterClass.name) := by
  intro own after config
  have collected : config.sectionWithExcludes linterClass.name = .ok after :=
    sectionWithExcludes_merge_switches plain filled.names_differ lists member
  have found : config.registry.find? linterClass.name = some linterClass :=
    filled.find?_name member
  exact ⟨sameButFlag_put _ _ _ _, collected,
    forLinter_of_entries found collected⟩

theorem selects_merge_switches (plain : loaded.IsPlain)
    (filled : loaded.registry.Filled) (lists : loaded.entries.Lists patterns)
    (tells : ∀ linterClass ∈ loaded.registry.classes,
      flag linterClass = true ↔ chosen linterClass) :
    Selects (loaded.merge
      (ofSections (switches loaded.registry.classes flag) loaded.registry))
      chosen := by
  apply selects_of_flags
    (show (loaded.merge _).registry.Filled from filled) tells
  intro linterClass member
  obtain ⟨same, -, reads⟩ :=
    forLinter_merge_switches flag plain filled lists member
  rw [reads]
  cases resolved : LinterConfig.resolve linterClass.schema _ with
  | error error => exact .inl ⟨error, rfl⟩
  | ok options =>
      have enabled := (LinterConfig.resolve_eq_ok_iff.mp resolved).1
      rw [same.enabled] at enabled
      exact .inr ⟨options, rfl, (Except.ok.inj enabled).symm⟩

theorem keepsOptions_merge_switches (plain : loaded.IsPlain)
    (filled : loaded.registry.Filled) (lists : loaded.entries.Lists patterns)
    (tells : ∀ linterClass ∈ loaded.registry.classes,
      flag linterClass = true ↔ chosen linterClass) :
    KeepsOptions (loaded.merge
      (ofSections (switches loaded.registry.classes flag) loaded.registry))
      loaded chosen := by
  intro linterClass member own found
  obtain ⟨same, collected, reads⟩ :=
    forLinter_merge_switches flag plain filled lists member
  rw [writtenSection_of_section? found] at same collected reads
  have before := sectionWithExcludes_of_section found
    (globalExclude_of_lists lists)
  refine ⟨_, _, _, before, collected, same, tells linterClass member, ?_⟩
  intro options resolved
  rw [forLinter_of_entries (filled.find?_name member) before] at resolved
  cases given : LinterConfig.resolve linterClass.schema
      (withShared own (patterns.map .text)) with
  | error error =>
      rw [given] at resolved
      contradiction
  | ok options =>
      rw [given] at resolved
      cases resolved
      rw [reads, same.resolve given]
      rfl

/-- A layer that enables some registered classes selects them alone and keeps
all other options. -/
theorem enables_exactly {enabled : List LinterClass} (plain : loaded.IsPlain)
    (filled : loaded.registry.Filled) (lists : loaded.entries.Lists patterns)
    (registered : ∀ other ∈ enabled, other ∈ loaded.registry.classes)
    (isEnabled : ∀ linterClass ∈ loaded.registry.classes,
      linterClass ∈ enabled ↔ chosen linterClass) :
    let config := loaded.merge (enabledOverride loaded.registry enabled)
    Selects config chosen ∧ KeepsOptions config loaded chosen := by
  have tells : ∀ linterClass ∈ loaded.registry.classes,
      enabled.any linterClass.same = true ↔ chosen linterClass := by
    intro linterClass member
    rw [filled.any_same_iff registered member]
    exact isEnabled linterClass member
  exact ⟨selects_merge_switches plain filled lists tells,
    keepsOptions_merge_switches plain filled lists tells⟩

end Switched

/-- An invocation that names linters selects exactly the registered classes
that these names find, whatever is written in the sections of linters or in
their place; one that asks for all linters selects every registered class.
Either the options of a registered class are invalid, and the selection fails
as such, or it succeeds.  All options other than the flags of linters stay as
they are. -/
theorem enabling_selects_exactly {requested : Option Path}
    {patterns : List String} (filled : workspace.registry.Filled)
    (isLoaded : (loadConfig workspace requested).result = .ok loaded)
    (lists : loaded.entries.Lists patterns) (options : Options) :
    (∀ names enabled,
      (resolveNames workspace.registry names).result = .ok enabled →
      let chosen := fun linterClass =>
        ∃ name ∈ names, workspace.registry.find? name = some linterClass
      ∃ config,
        (applyEnabling { options with
          enableAllLinters := false, enableLinters := some names }
          loaded).result = .ok config ∧
        config.registry = workspace.registry ∧
        Selects config chosen ∧ KeepsOptions config loaded chosen) ∧
    ∃ config,
      (applyEnabling { options with enableAllLinters := true } loaded).result =
        .ok config ∧
      config.registry = workspace.registry ∧
      Selects config (fun _ => True) ∧
      KeepsOptions config loaded (fun _ => True) := by
  obtain ⟨plain, sameRegistry⟩ := plain_of_loadConfig isLoaded
  rw [← sameRegistry] at filled ⊢
  constructor
  · intro names enabled accepted chosen
    have finds := resolveNames_result_eq_ok_iff.mp accepted
    have registered : ∀ other ∈ enabled, other ∈ loaded.registry.classes := by
      intro other inEnabled
      obtain ⟨name, -, found⟩ := (mem_iff_of_finds finds).mp inEnabled
      exact Registry.mem_classes_of_find? found
    refine ⟨loaded.merge (enabledOverride loaded.registry enabled), ?_, rfl,
      enables_exactly plain filled lists registered
        fun _ _ => mem_iff_of_finds finds⟩
    exact Stage.bind_result_eq_ok_iff.mpr ⟨enabled, accepted, rfl⟩
  · refine ⟨loaded.merge (enabledOverride loaded.registry
      loaded.registry.classes), rfl, rfl, ?_⟩
    exact enables_exactly plain filled lists (fun _ registered => registered)
      fun _ registered => iff_true_intro registered

/-- A workspace whose configuration has something other than a section and
something other than a flag. -/
def illTyped : Workspace where
  directory := .ofString "/work"
  tree := FileTree.empty.addFile ["work", defaultConfigFile]
    (Utf8.encode ("exclude = ['vendor/*']\nlinters.FinalNewline = 3\n"
      ++ "linters.RightTrim.enabled = 'maybe'\n"
      ++ "linters.RightTrim.enforced_style = '='\n" : String).toList)
  registry := .builtin
  metadata := ⟨"", "", "", ""⟩
  standardInput := .ok []

/-- A linter whose section is no table is selected, and one whose flag is none
keeps its other options. -/
theorem enabling_selects_beside_ill_typed :
    ∃ loaded config,
      illTyped.registry.Filled ∧
      (loadConfig illTyped none).result = .ok loaded ∧
      loaded.entries.Lists ["vendor/*"] ∧
      (resolveNames illTyped.registry ["final_newline"]).result =
        .ok [.finalNewline] ∧
      (applyEnabling { enableLinters := some ["final_newline"] }
        loaded).result = .ok config ∧
      (selectLinters config).result.toOption.map (·.map (·.name)) =
        some ["FinalNewline"] ∧
      config.forLinter "RightTrim" =
        .ok ⟨false, ["vendor/*"], .enforcedStyle .equals⟩ ∧
      Selects config fun linterClass => ∃ name ∈ ["final_newline"],
        illTyped.registry.find? name = some linterClass := by
  have filled : illTyped.registry.Filled := Registry.filled_builtin
  have accepted : (resolveNames illTyped.registry ["final_newline"]).result =
      .ok [.finalNewline] := by rfl
  have computed : (loadConfig illTyped none).result.toOption.map (fun loaded =>
      (LinterConfig.excludeOf loaded.entries,
        (applyEnabling { enableLinters := some ["final_newline"] }
          loaded).result.toOption.map fun config =>
            ((selectLinters config).result.toOption.map (·.map (·.name)),
              config.forLinter "RightTrim"))) =
      some (.ok ["vendor/*"], some (some ["FinalNewline"],
        .ok ⟨false, ["vendor/*"], .enforcedStyle .equals⟩)) := by
    decide +kernel
  cases isLoaded : (loadConfig illTyped none).result with
  | error halt => simp [isLoaded, Except.toOption] at computed
  | ok loaded =>
      simp only [isLoaded, Except.toOption, Option.map_some, Option.some.injEq,
        Prod.mk.injEq] at computed
      have lists := lists_of_excludeOf (plain_of_loadConfig isLoaded).1 computed.1
      obtain ⟨named, -⟩ := enabling_selects_exactly filled isLoaded lists {}
      obtain ⟨config, enables, -, selects, -⟩ := named _ _ accepted
      have results := computed.2
      simp only [enables, Option.map_some, Option.some.injEq, Prod.mk.injEq]
        at results
      exact ⟨loaded, config, filled, rfl, lists, accepted, enables, results.1,
        results.2, selects⟩

end Session

end TemplateLint
