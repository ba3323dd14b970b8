import TemplateLint.Proofs.Config.Malformed
import TemplateLint.Proofs.Discovery.Globs
import TemplateLint.Proofs.Session.Enabling
import TemplateLint.Proofs.Session.Rerun

/-!
# Sessions that break off

A session whose configuration can be read ends with an outcome unless the
configuration has a value of the wrong kind that nothing checks.  It breaks
off there, at the first linter whose options cannot be collected, in a search
with a bad glob or, without any linter, at the global excludes.  A malformed
configuration under which it does not break off is reported as invalid.
-/

namespace TemplateLint

/-- The errors that a session does not handle. -/
def ConfigError.Unhandled : ConfigError → Prop
  | .invalidOption _ _ => False
  | _ => True

namespace Stage

variable {α β : Type}

/-- A part of a session that ends in a crash. -/
def BreaksOff (stage : Stage α) : Prop :=
  ∃ crash, stage.result = .error (.crashed crash)

theorem breaksOff_bind_iff {stage : Stage α} {next : α → Stage β} :
    (stage >>= next).BreaksOff ↔
      stage.BreaksOff ∨
        ∃ value, stage.result = .ok value ∧ (next value).BreaksOff := by
  simp only [BreaksOff]
  cases done : stage.result with
  | error halt =>
      rw [bind_of_error done]
      simp
  | ok value =>
      rw [bind_of_ok done]
      simp

theorem not_breaksOff_of_ok {stage : Stage α} {value : α}
    (done : stage.result = .ok value) : ¬stage.BreaksOff := by
  rintro ⟨crash, broken⟩
  rw [done] at broken
  contradiction

@[simp] theorem not_breaksOff_pure (value : α) :
    ¬(pure value : Stage α).BreaksOff :=
  not_breaksOff_of_ok rfl

@[simp] theorem not_breaksOff_done (value : α) : ¬(done value).BreaksOff :=
  not_breaksOff_of_ok rfl

@[simp] theorem not_breaksOff_tell (events : List Event) :
    ¬(tell events).BreaksOff :=
  not_breaksOff_of_ok rfl

@[simp] theorem not_breaksOff_fail (kind : FailureKind) (message : Text)
    (stats : Stats) : ¬(fail kind message stats : Stage α).BreaksOff := by
  rintro ⟨crash, broken⟩
  simp at broken

@[simp] theorem breaksOff_crash (error : Crash) :
    (crash error : Stage α).BreaksOff :=
  ⟨error, rfl⟩

end Stage

namespace Session

open RunnerConfig Stage

variable {workspace : Workspace} {options : Options} {config : RunnerConfig}

theorem breaksOff_configResult_iff {α : Type} {result : Except ConfigError α} :
    (configResult result).BreaksOff ↔ FailsWith (·.Unhandled) result := by
  cases result with
  | ok value => simp [configResult]
  | error error => cases error <;> simp [configResult, ConfigError.Unhandled]

/-! ## Preparing -/

/-- The configuration file, if it is there, can be read. -/
def Readable (workspace : Workspace) (options : Options) : Prop :=
  ∀ bytes,
    workspace.tree.bytes? (configComponents workspace options) = some bytes →
    ∃ loaded, RunnerConfig.read 0 bytes workspace.registry = .ok loaded

theorem not_breaksOff_parseFailLevel (level : Option String) :
    ¬(parseFailLevel level).BreaksOff := by
  unfold parseFailLevel
  split
  · simp
  · split <;> simp

theorem not_breaksOff_parseFormat (name : String) :
    ¬(parseFormat name).BreaksOff := by
  unfold parseFormat
  split <;> simp

theorem not_breaksOff_loadConfig (readable : Readable workspace options) :
    ¬(loadConfig workspace options.config).BreaksOff := by
  simp only [loadConfig]
  split
  · rename_i bytes held
    obtain ⟨loaded, read⟩ := readable bytes held
    simp [readConfig, read, breaksOff_bind_iff]
  · split <;> simp [breaksOff_bind_iff]

theorem not_breaksOff_resolveNames (registry : Registry) (names : List String) :
    ¬(resolveNames registry names).BreaksOff := by
  induction names with
  | nil => simp [resolveNames]
  | cons name later induction =>
      rw [resolveNames]
      split <;> simp [breaksOff_bind_iff, induction]

theorem not_breaksOff_applyEnabling (options : Options) (config : RunnerConfig) :
    ¬(applyEnabling options config).BreaksOff := by
  unfold applyEnabling
  split
  · simp
  · split <;> simp [breaksOff_bind_iff, not_breaksOff_resolveNames]

theorem not_breaksOff_prepare (readable : Readable workspace options) :
    ¬(prepare workspace options).BreaksOff := by
  simp [prepare, breaksOff_bind_iff, not_breaksOff_parseFailLevel,
    not_breaksOff_parseFormat, not_breaksOff_loadConfig readable,
    not_breaksOff_applyEnabling]

theorem plain_of_applyEnabling {loaded : RunnerConfig} (plain : loaded.IsPlain)
    (applied : (applyEnabling options loaded).result = .ok config) :
    config.IsPlain ∧ config.registry = loaded.registry := by
  unfold applyEnabling at applied
  split at applied
  · cases applied
    exact ⟨isPlain_ofEntries _ _, rfl⟩
  · split at applied
    · cases applied
      exact ⟨plain, rfl⟩
    · obtain ⟨enabled, -, applied⟩ := Stage.bind_result_eq_ok_iff.mp applied
      cases applied
      exact ⟨isPlain_ofEntries _ _, rfl⟩

/-- A prepared configuration is plain, with the registry of the workspace. -/
theorem plain_of_prepare {preparation : Preparation}
    (prepared : (prepare workspace options).result = .ok preparation) :
    preparation.config.IsPlain ∧
      preparation.config.registry = workspace.registry := by
  obtain ⟨-, -, loaded, isLoaded, applied⟩ :=
    prepare_result_eq_ok_iff.mp prepared
  obtain ⟨plainLoaded, sameLoaded⟩ := plain_of_loadConfig isLoaded
  obtain ⟨plain, same⟩ := plain_of_applyEnabling plainLoaded applied
  exact ⟨plain, same.trans sameLoaded⟩

/-! ## Selecting linters -/

/-- A filter breaks off with the first test that does. -/
theorem failsWith_filterM_iff {Item Error : Type} {kinds : Error → Prop}
    {test : Item → Except Error Bool} {items : List Item} :
    FailsWith kinds (items.filterM test) ↔
      Reaches (Passes test) (fun item => FailsWith kinds (test item)) items := by
  -- items are collected in reverse, so the induction carries those kept so far
  suffices collecting : ∀ kept,
      FailsWith kinds (List.filterAuxM test items kept) ↔
        Reaches (Passes test) (fun item => FailsWith kinds (test item)) items by
    simp [List.filterM, failsWith_bind_iff, collecting, pure, Except.pure]
  induction items with
  | nil => simp [List.filterAuxM, pure, Except.pure]
  | cons item items induction =>
      intro kept
      rw [List.filterAuxM, failsWith_bind_iff, reaches_cons_iff]
      simp [induction, Passes]

/-- A registered class has its options. -/
def Resolves (config : RunnerConfig) (linterClass : LinterClass) : Prop :=
  ∃ options, config.forLinter linterClass.name = .ok options

/-- The classes that a configuration enables, unless options are missing. -/
def selection (config : RunnerConfig) : Except ConfigError (List LinterClass) :=
  config.registry.classes.filterM fun linterClass =>
    (config.forLinter linterClass.name).map (·.enabled)

theorem selectLinters_eq (config : RunnerConfig) :
    selectLinters config = configResult (selection config) := rfl

/-- A selection fails with the first class that has no options. -/
theorem failsWith_selection_iff {kinds : ConfigError → Prop} :
    FailsWith kinds (selection config) ↔
      Reaches (Resolves config)
        (fun linterClass => FailsWith kinds (config.forLinter linterClass.name))
        config.registry.classes := by
  rw [selection, failsWith_filterM_iff]
  apply reaches_congr
  · intro linterClass _
    simp only [Passes, Resolves]
    cases config.forLinter linterClass.name <;> simp [Except.map]
  · intro linterClass _
    exact failsWith_map_iff

theorem exists_selection_iff :
    (∃ classes, selection config = .ok classes) ↔
      ∀ linterClass ∈ config.registry.classes, Resolves config linterClass := by
  constructor
  · rintro ⟨classes, selected⟩
    by_contra unresolved
    simp only [not_forall, exists_prop] at unresolved
    have fails : FailsWith (fun _ => True) (selection config) :=
      failsWith_selection_iff.mpr (reaches_of_exists
        (fun _ _ => passes_or_failsWith_of_not (by simp [FailsWith])) unresolved)
    rw [selected] at fails
    exact not_failsWith_ok _ fails
  · intro resolves
    cases selected : selection config with
    | ok classes => exact ⟨classes, rfl⟩
    | error error =>
        have fails : FailsWith (· = error) (selection config) :=
          ⟨error, selected, rfl⟩
        obtain ⟨linterClass, registered, failsHere⟩ :=
          (failsWith_selection_iff.mp fails).exists_mem
        obtain ⟨given, resolved⟩ := resolves linterClass registered
        rw [resolved] at failsHere
        exact absurd failsHere (not_failsWith_ok _)

/-- Only registered classes are selected. -/
theorem registered_of_selection {classes : List LinterClass}
    {linterClass : LinterClass} (selected : selection config = .ok classes)
    (member : linterClass ∈ classes) :
    linterClass ∈ config.registry.classes := by
  have answers : ∀ linterClass ∈ config.registry.classes, ∀ result,
      (config.forLinter linterClass.name).map (·.enabled) = .ok result →
      result = ((config.forLinter linterClass.name).map
        (·.enabled)).toOption.getD false := by
    intro linterClass _ result tested
    rw [tested]
    rfl
  rw [selection] at selected
  rcases filterM_eq_error_or_ok answers with ⟨_, _, _, _, broken⟩ | complete
  · rw [broken] at selected
    contradiction
  · rw [complete] at selected
    obtain rfl := Except.ok.inj selected
    exact (List.mem_filter.mp member).1

theorem failsWith_forLinter_iff {linterClass : LinterClass} {name : String}
    (found : config.registry.find? name = some linterClass) :
    FailsWith (·.Unhandled) (config.forLinter name) ↔
      config.Breaks linterClass.name := by
  by_cases breaks : config.Breaks linterClass.name
  · obtain ⟨error, broken, kinds⟩ := forLinter_of_breaks found breaks
    rw [broken]
    rcases kinds with rfl | rfl <;> simp [breaks, ConfigError.Unhandled]
  · rcases forLinter_of_not_breaks found breaks with
      ⟨given, resolved⟩ | ⟨error, invalid⟩
    · simp [resolved, breaks]
    · simp [invalid, breaks, ConfigError.Unhandled]

/-- A selection breaks off at the first class without options if these cannot
be collected. -/
theorem breaksOff_selectLinters_iff (filled : config.registry.Filled) :
    (selectLinters config).BreaksOff ↔
      Reaches (Resolves config) (fun linterClass => config.Breaks linterClass.name)
        config.registry.classes := by
  rw [selectLinters_eq, breaksOff_configResult_iff, failsWith_selection_iff]
  exact reaches_congr (fun _ _ => Iff.rfl)
    fun _ registered => failsWith_forLinter_iff (filled.find?_name registered)

/-- A selection that fails without breaking off reports an invalid option of a
registered class. -/
theorem selectLinters_of_unresolved (filled : config.registry.Filled)
    (unresolved : ¬∀ linterClass ∈ config.registry.classes,
      Resolves config linterClass)
    (goesOn : ¬(selectLinters config).BreaksOff) :
    ∃ linterClass ∈ config.registry.classes, ∃ error,
      config.forLinter linterClass.name =
        .error (.invalidOption linterClass.name error) ∧
      selectLinters config = .fail .invalidConfig
        (ConfigError.invalidOption linterClass.name error).message := by
  rw [selectLinters_eq] at goesOn ⊢
  rw [breaksOff_configResult_iff] at goesOn
  cases selected : selection config with
  | ok classes =>
      exact absurd (exists_selection_iff.mp ⟨classes, selected⟩) unresolved
  | error error =>
      have fails : FailsWith (· = error) (selection config) :=
        ⟨error, selected, rfl⟩
      obtain ⟨linterClass, registered, same, broken, rfl⟩ :=
        (failsWith_selection_iff.mp fails).exists_mem
      have found := filled.find?_name registered
      have collects : ¬config.Breaks linterClass.name := by
        rw [← failsWith_forLinter_iff found, broken, failsWith_error_iff]
        rwa [selected, failsWith_error_iff] at goesOn
      refine ⟨linterClass, registered, ?_⟩
      rcases forLinter_of_not_breaks found collects with
        ⟨given, resolved⟩ | ⟨error, invalid⟩
      · rw [broken] at resolved
        contradiction
      · rw [broken] at invalid
        obtain rfl := Except.error.inj invalid
        exact ⟨error, broken, rfl⟩

/-! ## Finding files -/

/-- The search for the files that the options name. -/
def namedSearch (workspace : Workspace) (options : Options)
    (config : RunnerConfig) : Search :=
  ⟨workspace.directory, workspace.directory, globOf config, options.everything⟩

/-- A session searches a directory for the files that its options name. -/
def Descends (workspace : Workspace) (options : Options)
    (config : RunnerConfig) : Prop :=
  options.standardInput = none ∧
    (namedSearch workspace options config).Descends workspace.tree
      (options.files.map Path.toString)

/-- The files that a session finds, unless its search breaks off. -/
def searched (workspace : Workspace) (options : Options)
    (config : RunnerConfig) : Except DiscoveryError (List String) :=
  let search := namedSearch workspace options config
  match options.standardInput with
  | some path =>
      { search with glob := some defaultGlob, everything := false }.discover
        workspace.tree [path.toString]
  | none => search.discover workspace.tree (options.files.map Path.toString)

theorem failsWith_searched_iff :
    FailsWith (·.AboutGlob) (searched workspace options config) ↔
      BadGlob (globOf config) ∧ Descends workspace options config := by
  rw [searched, Descends]
  cases options.standardInput with
  | none =>
      rw [Search.failsWith_discover_iff]
      simp [namedSearch]
  | some path =>
      rw [Search.failsWith_discover_iff]
      simp [not_badGlob_default]

theorem breaksOff_findFiles_iff :
    (findFiles workspace options config).BreaksOff ↔
      BadGlob (globOf config) ∧ Descends workspace options config := by
  rw [← failsWith_searched_iff]
  unfold findFiles
  dsimp only
  split
  · rename_i files found
    change searched workspace options config = _ at found
    simp [found, Stage.BreaksOff]
  · rename_i name found
    change searched workspace options config = _ at found
    simp [found, DiscoveryError.AboutGlob]
  · rename_i error other found
    change searched workspace options config = _ at found
    cases error with
    | pathNotFound name => exact absurd rfl (other name)
    | _ => simp [found, DiscoveryError.AboutGlob]

/-! ## Excluding files -/

theorem leadingTexts_append (texts : List String) (rest : List Value) :
    leadingTexts (texts.map .text ++ rest) =
      (texts ++ (leadingTexts rest).1, (leadingTexts rest).2) := by
  induction texts with
  | nil => rfl
  | cons text texts induction =>
      simp only [List.map_cons, List.cons_append, leadingTexts, induction]

/-- The texts at the beginning of a list are followed by something else. -/
theorem leadingTexts_eq_iff {items : List Value} {texts : List String} :
    leadingTexts items = (texts, true) ↔
      ∃ other later, items = texts.map .text ++ other :: later ∧
        ∀ content, other ≠ .text content := by
  constructor
  · intro leads
    induction items generalizing texts with
    | nil => simp [leadingTexts] at leads
    | cons item items induction =>
        cases item with
        | text content =>
            simp only [leadingTexts, Prod.mk.injEq] at leads
            obtain ⟨rfl, hasOther⟩ := leads
            obtain ⟨other, later, rest, noText⟩ := induction
              (Prod.ext rfl hasOther)
            exact ⟨other, later, by rw [List.map_cons, List.cons_append, ← rest],
              noText⟩
        | _ =>
            simp only [leadingTexts, Prod.mk.injEq, and_true] at leads
            subst leads
            exact ⟨_, items, rfl, by simp⟩
  · rintro ⟨other, later, rfl, noText⟩
    rw [leadingTexts_append]
    cases other with
    | text content => exact absurd rfl (noText content)
    | _ => simp [leadingTexts]

/-- Some file gets to a global exclude that is no text. -/
def GetsToOther (workspace : Workspace) (config : RunnerConfig)
    (files : List String) : Prop :=
  ∃ (texts : List String) (other : Value) (later : List Value),
    config.globalExclude = .ok (texts.map .text ++ other :: later) ∧
      (∀ content, other ≠ .text content) ∧
      ∃ file ∈ files, isExcluded workspace.directory
        workspace.directory.toString texts file = false

/-- Keeping files under some excludes breaks off at one that is no text. -/
theorem breaksOff_keeping_iff {items : List Value} {files : List String} :
    (if (leadingTexts items).2 && !(files.filter fun file =>
          !isExcluded workspace.directory workspace.directory.toString
            (leadingTexts items).1 file).isEmpty then
        Stage.crash .patternNotText
      else pure (files.filter fun file =>
          !isExcluded workspace.directory workspace.directory.toString
            (leadingTexts items).1 file)).BreaksOff ↔
      ∃ texts, leadingTexts items = (texts, true) ∧
        ∃ file ∈ files, isExcluded workspace.directory
          workspace.directory.toString texts file = false := by
  obtain ⟨texts, hasOther⟩ := leadingTexts items
  cases hasOther with
  | false => simp
  | true =>
      split
      · rename_i kept
        simpa using kept
      · rename_i dropped
        simpa using dropped

theorem breaksOff_excludeFiles_iff {files : List String} :
    (excludeFiles workspace config files).BreaksOff ↔
      config.NoItems ∨ GetsToOther workspace config files := by
  rw [excludeFiles, breaksOff_bind_iff, breaksOff_configResult_iff]
  apply or_congr
  · simp only [FailsWith, globalExclude_eq_error_iff]
    constructor
    · rintro ⟨_, ⟨noItems, -⟩, -⟩
      exact noItems
    · exact fun noItems => ⟨_, ⟨noItems, rfl⟩, trivial⟩
  · simp only [configResult_eq_ok_iff, breaksOff_keeping_iff,
      leadingTexts_eq_iff]
    constructor
    · rintro ⟨_, global, texts, ⟨other, later, rfl, noText⟩, kept⟩
      exact ⟨texts, other, later, global, noText, kept⟩
    · rintro ⟨texts, other, later, global, noText, kept⟩
      exact ⟨_, global, texts, ⟨other, later, rfl, noText⟩, kept⟩

/-! ## Whole sessions -/

/-- Whether a session lints files, and not a text under the name of a
directory. -/
def NamesFile (workspace : Workspace) (options : Options) : Prop :=
  ∀ path, options.standardInput = some path →
    workspace.tree.isDirectory (workspace.directory.under path).components =
      false

theorem breaksOff_discover_iff :
    (discover workspace options config).BreaksOff ↔
      NamesFile workspace options ∧
        ((findFiles workspace options config).BreaksOff ∨
          ∃ files, (findFiles workspace options config).result = .ok files ∧
            (excludeFiles workspace config files).BreaksOff) := by
  rw [← breaksOff_bind_iff, NamesFile]
  unfold discover
  cases options.standardInput with
  | none => simp
  | some path =>
      simp only [Option.some.injEq, forall_eq']
      split
      · rename_i isDirectory
        simp [breaksOff_bind_iff, isDirectory]
      · rename_i noDirectory
        simp [noDirectory]

theorem not_breaksOff_lintFile (engine : Engine) (linted : Linted)
    (filename : String) :
    ¬(lintFile workspace options engine linted filename).BreaksOff := by
  unfold lintFile
  split
  · simp
  · rw [breaksOff_bind_iff]
    rintro (breaks | ⟨_, -, breaks⟩)
    · exact not_breaksOff_tell _ breaks
    · split at breaks <;> simp at breaks

theorem not_breaksOff_lintFiles (engine : Engine) (linted : Linted)
    (files : List String) :
    ¬(lintFiles workspace options engine linted files).BreaksOff := by
  induction files generalizing linted with
  | nil => simp [lintFiles]
  | cons filename later induction =>
      simp [lintFiles, breaksOff_bind_iff, not_breaksOff_lintFile, induction]

theorem not_breaksOff_lint (engine : Engine) (files : List String)
    (preparation : Preparation) :
    ¬(lint workspace options engine files preparation).BreaksOff := by
  simp [lint, breaksOff_bind_iff, not_breaksOff_lintFiles]

/-- After its plan a session does not break off. -/
theorem not_breaksOff_finish {plan : Plan}
    (resolves : ∀ linterClass ∈ plan.classes,
      Resolves plan.preparation.config linterClass) :
    ¬(finish workspace options plan).BreaksOff := by
  unfold finish
  split
  · split <;> simp [breaksOff_bind_iff]
  · rw [breaksOff_bind_iff, breaksOff_configResult_iff]
    rintro (breaks | ⟨engine, -, breaks⟩)
    · rw [Plan.engine, Engine.build, failsWith_bind_iff, failsWith_mapM_iff]
        at breaks
      rcases breaks with reaches | ⟨_, -, breaks⟩
      · obtain ⟨linterClass, member, fails⟩ := reaches.exists_mem
        obtain ⟨given, resolved⟩ := resolves linterClass member
        rw [resolved] at fails
        exact not_failsWith_ok _ fails
      · exact not_failsWith_ok _ breaks
    · exact not_breaksOff_lint _ _ _ breaks

/-- Where a session with a prepared configuration breaks off. -/
inductive Breaks (workspace : Workspace) (options : Options)
    (config : RunnerConfig) : Prop where
  | atLinter (reaches : Reaches (Resolves config)
      (fun linterClass => config.Breaks linterClass.name)
      config.registry.classes)
  | atGlob (resolves : ∀ linterClass ∈ config.registry.classes,
        Resolves config linterClass)
      (bad : BadGlob (globOf config))
      (descends : Descends workspace options config)
  | atExcludes (noLinter : config.registry.classes = [])
      (namesFile : NamesFile workspace options) {files : List String}
      (found : (findFiles workspace options config).result = .ok files)
      (breaks : config.NoItems ∨ GetsToOther workspace config files)

/-- Global excludes that reach the options of a linter are texts. -/
theorem noLinter_of_breaks {files : List String} (plain : config.IsPlain)
    (filled : config.registry.Filled)
    (resolves : ∀ linterClass ∈ config.registry.classes,
      Resolves config linterClass)
    (breaks : config.NoItems ∨ GetsToOther workspace config files) :
    config.registry.classes = [] := by
  by_contra some_class
  obtain ⟨first, registered⟩ := List.exists_mem_of_ne_nil _ some_class
  obtain ⟨given, resolved⟩ := resolves first registered
  obtain ⟨-, shared, -, global, -⟩ := excludes_of_resolved plain
    (filled.find?_name registered) resolved
  rcases breaks with noItems | ⟨texts, other, later, listed, noText, -⟩
  · rw [globalExclude_eq_error_iff.mpr ⟨noItems, rfl⟩] at global
    contradiction
  · have member : other ∈ shared.map Value.text := by
      rw [← Except.ok.inj (listed.symm.trans global)]
      simp
    obtain ⟨content, -, same⟩ := List.mem_map.mp member
    exact noText content same.symm

/-- A plan breaks off while its linters are selected or its files are found. -/
theorem breaks_iff (plain : config.IsPlain) (filled : config.registry.Filled) :
    Breaks workspace options config ↔
      (selectLinters config).BreaksOff ∨
        ∃ classes, (selectLinters config).result = .ok classes ∧
          (discover workspace options config).BreaksOff := by
  rw [breaksOff_selectLinters_iff filled, breaksOff_discover_iff,
    breaksOff_findFiles_iff]
  simp only [breaksOff_excludeFiles_iff, selectLinters_eq,
    configResult_eq_ok_iff]
  constructor
  · intro breaks
    cases breaks with
    | atLinter reaches => exact .inl reaches
    | atGlob resolves bad descends =>
        obtain ⟨classes, selected⟩ := exists_selection_iff.mpr resolves
        have namesFile : NamesFile workspace options := by
          simp [NamesFile, descends.1]
        exact .inr ⟨classes, selected, namesFile, .inl ⟨bad, descends⟩⟩
    | @atExcludes noLinter namesFile files found breaks =>
        obtain ⟨classes, selected⟩ := (@exists_selection_iff config).mpr
          (by simp [noLinter])
        exact .inr ⟨classes, selected, namesFile, .inr ⟨files, found, breaks⟩⟩
  · rintro (reaches | ⟨classes, selected, namesFile, breaks⟩)
    · exact .atLinter reaches
    · have resolves := exists_selection_iff.mp ⟨classes, selected⟩
      rcases breaks with ⟨bad, descends⟩ | ⟨files, found, breaks⟩
      · exact .atGlob resolves bad descends
      · exact .atExcludes (noLinter_of_breaks plain filled resolves breaks)
          namesFile found breaks

theorem ending_eq_crash_iff :
    (∃ crash, (run workspace options).ending = .error crash) ↔
      (stages workspace options).BreaksOff := by
  simp only [run, Stage.BreaksOff]
  split
  · rename_i outcome written staged
    simp [staged]
  · rename_i outcome staged
    simp [staged]
  · rename_i crash staged
    simp [staged]

/-- After its plan a session does not break off. -/
theorem breaksOff_stages_iff :
    (stages workspace options).BreaksOff ↔
      (Session.plan workspace options).BreaksOff := by
  rw [stages_eq_plan, breaksOff_bind_iff]
  apply or_iff_left
  rintro ⟨plan, planned, breaks⟩
  obtain ⟨-, selected, -⟩ := plan_result_eq_ok_iff.mp planned
  rw [selectLinters_eq, configResult_eq_ok_iff] at selected
  have resolves := exists_selection_iff.mp ⟨_, selected⟩
  exact not_breaksOff_finish
    (fun _ member => resolves _ (registered_of_selection selected member)) breaks

/-- A session whose configuration is readable breaks off exactly where its
prepared configuration makes it do so. -/
theorem breaksOff_plan_iff (filled : workspace.registry.Filled)
    (readable : Readable workspace options) :
    (Session.plan workspace options).BreaksOff ↔
      ∃ preparation, (prepare workspace options).result = .ok preparation ∧
        Breaks workspace options preparation.config := by
  rw [Session.plan, breaksOff_bind_iff,
    or_iff_right (not_breaksOff_prepare readable)]
  apply exists_congr
  intro preparation
  apply and_congr_right
  intro prepared
  obtain ⟨plain, same⟩ := plain_of_prepare prepared
  rw [← same] at filled
  rw [breaks_iff plain filled]
  simp [breaksOff_bind_iff]

/-- With a linter, a session breaks off only on something malformed or on a
bad glob. -/
theorem Breaks.malformed_or_badGlob (breaks : Breaks workspace options config)
    (some_class : config.registry.classes ≠ []) :
    config.Malformed ∨ BadGlob (globOf config) := by
  cases breaks with
  | atLinter reaches =>
      obtain ⟨linterClass, registered, breaks⟩ := reaches.exists_mem
      exact .inl (malformed_of_breaks registered breaks)
  | atGlob _ bad _ => exact .inr bad
  | atExcludes noLinter _ _ _ => exact absurd noLinter some_class

/-- A session ends with the failure that the selection of its linters reports. -/
theorem ending_of_selectLinters {preparation : Preparation}
    {kind : FailureKind} {message : Text}
    (prepared : (prepare workspace options).result = .ok preparation)
    (selected : selectLinters preparation.config = .fail kind message) :
    (run workspace options).ending =
      .ok { failure := some ⟨kind, message⟩ } := by
  have staged : (stages workspace options).result =
      .error (.ended { failure := some ⟨kind, message⟩ }) := by
    rw [stages_eq_plan, Session.plan, Stage.bind_of_ok prepared, selected]
    rfl
  simp [run, staged]

/-- If the configuration file can be read, a session ends with an outcome,
except exactly where the prepared configuration makes it break off, which with
a registered linter takes a malformed part or a bad glob.  Wherever it does
not break off, a malformed part is reported as an invalid configuration, with
an invalid option of a registered linter. -/
theorem run_reports_malformed (filled : workspace.registry.Filled)
    (readable : Readable workspace options) :
    ((∃ crash, (run workspace options).ending = .error crash) ↔
      ∃ preparation, (prepare workspace options).result = .ok preparation ∧
        Breaks workspace options preparation.config) ∧
    ∀ preparation, (prepare workspace options).result = .ok preparation →
      workspace.registry.classes ≠ [] →
      (Breaks workspace options preparation.config →
        preparation.config.Malformed ∨ BadGlob (globOf preparation.config)) ∧
      (preparation.config.Malformed →
        ¬Breaks workspace options preparation.config →
        ∃ linterClass ∈ workspace.registry.classes, ∃ error,
          preparation.config.forLinter linterClass.name =
            .error (.invalidOption linterClass.name error) ∧
          (run workspace options).ending = .ok
            { failure := some ⟨.invalidConfig,
                (ConfigError.invalidOption linterClass.name error).message⟩ }) := by
  constructor
  · rw [ending_eq_crash_iff, breaksOff_stages_iff]
    exact breaksOff_plan_iff filled readable
  · intro preparation prepared some_class
    obtain ⟨plain, same⟩ := plain_of_prepare prepared
    rw [← same] at filled some_class ⊢
    constructor
    · exact fun breaks => breaks.malformed_or_badGlob some_class
    · intro malformed goesOn
      have unresolved : ¬∀ linterClass ∈ preparation.config.registry.classes,
          Resolves preparation.config linterClass := by
        simpa [Resolves] using
          malformed.exists_unresolved plain filled some_class
      have selects : ¬(selectLinters preparation.config).BreaksOff :=
        fun breaks => goesOn ((breaks_iff plain filled).mpr (.inl breaks))
      obtain ⟨linterClass, registered, error, invalid, selected⟩ :=
        selectLinters_of_unresolved filled unresolved selects
      exact ⟨linterClass, registered, error, invalid,
        ending_of_selectLinters prepared selected⟩

/-- A workspace with a template and a configuration file. -/
def configured (content : String) : Workspace where
  directory := .ofString "/work"
  tree := (FileTree.empty.addFile ["work", "a.html.erb"]
    (Utf8.encode "x\n".toList)).addFile ["work", defaultConfigFile]
      (Utf8.encode content.toList)
  registry := .builtin
  metadata := ⟨"", "", "", ""⟩
  standardInput := .ok []

/-- Options that name the template. -/
def onTemplate : Options where
  files := [.ofString "a.html.erb"]

theorem readable_configured {content : String}
    (reads : (RunnerConfig.read 0 (Utf8.encode content.toList)
      .builtin).toBool = true) :
    Readable (configured content) onTemplate := by
  have held : (configured content).tree.bytes?
      (configComponents (configured content) onTemplate) =
      some (Utf8.encode content.toList) := by
    rfl
  intro bytes given
  rw [held, Option.some.injEq] at given
  subst given
  cases result : RunnerConfig.read 0 (Utf8.encode content.toList) .builtin with
  | ok loaded => exact ⟨loaded, result⟩
  | error error => simp [result, Except.toBool] at reads

/-- A workspace with a number among its global excludes. -/
def numbered : Workspace := configured "exclude = ['a', 1]\n"

/-- The number is reported with its index. -/
theorem run_reports_malformed_number :
    ∃ preparation, numbered.registry.Filled ∧ Readable numbered onTemplate ∧
      (prepare numbered onTemplate).result = .ok preparation ∧
      preparation.config.Malformed ∧
      ¬Breaks numbered onTemplate preparation.config ∧
      ∃ (linterClass : LinterClass) (error : OptionError),
        preparation.config.forLinter linterClass.name =
          .error (.invalidOption linterClass.name error) ∧
        (run numbered onTemplate).ending = .ok
          { failure := some ⟨.invalidConfig,
              (ConfigError.invalidOption linterClass.name error).message⟩ } := by
  have filled : numbered.registry.Filled := Registry.filled_builtin
  have readable : Readable numbered onTemplate :=
    readable_configured (by decide +kernel)
  have some_class : numbered.registry.classes ≠ [] := List.cons_ne_nil _ _
  have ends : (run numbered onTemplate).ending.toBool = true := by
    decide +kernel
  have refused : (prepare numbered onTemplate).result.toOption.map
      (fun preparation => LinterConfig.excludeOf preparation.config.entries) =
      some (.error ⟨"exclude.1", .notText⟩) := by
    decide +kernel
  obtain ⟨breaksIff, reports⟩ := run_reports_malformed filled readable
  cases prepared : (prepare numbered onTemplate).result with
  | error halt =>
      simp [prepared, Except.toOption] at refused
  | ok preparation =>
      simp only [prepared, Except.toOption, Option.map_some, Option.some.injEq]
        at refused
      have malformed : preparation.config.Malformed :=
        malformed_of_notText (plain_of_prepare prepared).1 refused
      have goesOn : ¬Breaks numbered onTemplate preparation.config := by
        intro breaks
        obtain ⟨crash, broken⟩ := breaksIff.mpr ⟨preparation, prepared, breaks⟩
        rw [broken] at ends
        exact Bool.false_ne_true ends
      obtain ⟨linterClass, -, error, invalid, ending⟩ :=
        (reports preparation prepared some_class).2 malformed goesOn
      exact ⟨preparation, filled, readable, rfl, malformed, goesOn,
        linterClass, error, invalid, ending⟩

/-- A flag in the place of all sections, a number in the place of one section
and a number in the place of the global excludes break a session off, and a
text in their place is taken for its characters. -/
theorem run_breaks_off_on_malformed :
    (∀ content ∈ ["linters = true\n", "linters.FinalNewline = 5\n",
        "exclude = 5\n", "exclude = 'abc'\n"],
      (RunnerConfig.read 0 (Utf8.encode content.toList) .builtin).toBool = true) ∧
    (run (configured "linters = true\n") onTemplate).ending.map (·.failure) =
      .error (.config .notTable) ∧
    (run (configured "linters.FinalNewline = 5\n") onTemplate).ending.map
      (·.failure) = .error (.config .notTable) ∧
    (run (configured "exclude = 5\n") onTemplate).ending.map (·.failure) =
      .error (.config .noItems) ∧
    (run (configured "exclude = 'abc'\n") onTemplate).ending.map (·.failure) =
      .ok none := by
  decide +kernel

end Session

end TemplateLint
