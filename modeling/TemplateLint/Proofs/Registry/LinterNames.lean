import Mathlib.Data.List.Nodup
import TemplateLint.Proofs.Linter.Name
import TemplateLint.Proofs.Registry.History
import TemplateLint.Proofs.Session.Enabling

/-!
# Lookup by linter names

Registration keeps class names apart, and not linter names: `ABC` and `Abc`
are both called `abc`.  A linter name finds the first registered class that
has it, so each class is found by its own exactly if no two are the same.
-/

namespace TemplateLint.Registry

variable {registry : Registry} {linterClass first : LinterClass}

/-- A linter name is looked up among linter names alone. -/
theorem find?_linterName (registry : Registry) (linterClass : LinterClass) :
    registry.find? linterClass.linterName =
      registry.classes.find? fun other =>
        other.linterName = linterClass.linterName := by
  rw [find?]
  congr 1
  funext other
  rw [Bool.eq_iff_iff, decide_eq_true_eq]
  exact LinterClass.answersTo_linterName_iff

theorem linterName_of_find?
    (found : registry.find? linterClass.linterName = some first) :
    first.linterName = linterClass.linterName := by
  have answers := List.find?_some found
  exact LinterClass.answersTo_linterName_iff.mp answers

/-- The linter name of a registered class finds some class. -/
theorem exists_find?_linterName (member : linterClass ∈ registry.classes) :
    ∃ first, registry.find? linterClass.linterName = some first := by
  rw [← Option.isSome_iff_exists, find?, List.find?_isSome]
  exact ⟨linterClass, member, LinterClass.answersTo_linterName_iff.mpr rfl⟩

theorem Filled.all_found_iff_nodup (filled : Filled registry) :
    (∀ linterClass ∈ registry.classes,
      registry.find? linterClass.linterName = some linterClass) ↔
      registry.linterNames.Nodup := by
  rw [linterNames, List.nodup_map_iff_inj_on filled.nodup]
  constructor
  · intro found left memberLeft right memberRight same
    have both := found left memberLeft
    rw [same, found right memberRight] at both
    exact (Option.some.inj both).symm
  · intro different linterClass member
    obtain ⟨first, found⟩ := exists_find?_linterName member
    rw [found, different first (mem_classes_of_find? found) linterClass member
      (linterName_of_find? found)]

/-- The linter name of a class gives the options of the class it finds. -/
theorem Filled.forLinter_linterName (filled : Filled registry)
    (found : registry.find? linterClass.linterName = some first)
    {config : RunnerConfig} (same : config.registry = registry) :
    config.forLinter linterClass.linterName = config.forLinter first.name := by
  have foundByName := filled.find?_name (mem_classes_of_find? found)
  rw [← same] at found foundByName
  rw [RunnerConfig.forLinter_of_found found,
    RunnerConfig.forLinter_of_found foundByName]

/-! ## Enabling all known names -/

open Session

/-- The names that are listed as known are accepted. -/
theorem exists_resolveNames_linterNames (registry : Registry) :
    ∃ enabled,
      (resolveNames registry registry.linterNames).result = .ok enabled := by
  simp only [resolveNames_result_eq_ok_iff, linterNames]
  suffices finds : ∀ classes : List LinterClass,
      (∀ linterClass ∈ classes, linterClass ∈ registry.classes) →
      ∃ enabled, List.Forall₂ (fun name linterClass =>
        registry.find? name = some linterClass ∧
          linterClass.linterName = name)
        (classes.map (·.linterName)) enabled from
    finds registry.classes fun _ member => member
  intro classes registered
  induction classes with
  | nil => exact ⟨[], .nil⟩
  | cons linterClass classes induction =>
      rw [List.forall_mem_cons] at registered
      obtain ⟨first, found⟩ := exists_find?_linterName registered.1
      obtain ⟨enabled, finds⟩ := induction registered.2
      exact ⟨first :: enabled,
        .cons ⟨found, linterName_of_find? found⟩ finds⟩

/-- Enabling all known names selects the classes that are found by their
own. -/
theorem Filled.selects_known (filled : Filled registry) {workspace : Workspace}
    {requested : Option Path} {loaded : RunnerConfig} {patterns : List String}
    (same : workspace.registry = registry)
    (isLoaded : (loadConfig workspace requested).result = .ok loaded)
    (lists : loaded.entries.Lists patterns) (options : Options) :
    ∃ config,
      (applyEnabling { options with
        enableAllLinters := false, enableLinters := some registry.linterNames }
        loaded).result = .ok config ∧
      config.registry = registry ∧
      Selects config fun linterClass =>
        registry.find? linterClass.linterName = some linterClass := by
  obtain ⟨plain, sameRegistry⟩ := plain_of_loadConfig isLoaded
  rw [same] at sameRegistry
  subst sameRegistry
  obtain ⟨enabled, accepted⟩ := exists_resolveNames_linterNames loaded.registry
  have finds := resolveNames_result_eq_ok_iff.mp accepted
  have registered : ∀ other ∈ enabled, other ∈ loaded.registry.classes := by
    intro other inEnabled
    obtain ⟨name, -, found⟩ := (mem_iff_of_finds finds).mp inEnabled
    exact mem_classes_of_find? found
  have isEnabled : ∀ linterClass ∈ loaded.registry.classes,
      linterClass ∈ enabled ↔
        loaded.registry.find? linterClass.linterName = some linterClass := by
    intro linterClass member
    rw [mem_iff_of_finds finds]
    constructor
    · rintro ⟨name, known, found⟩
      obtain ⟨other, -, rfl⟩ := List.mem_map.mp known
      rwa [linterName_of_find? found]
    · intro found
      exact ⟨_, List.mem_map_of_mem member, found⟩
  refine ⟨loaded.merge (enabledOverride loaded.registry enabled),
    Stage.bind_result_eq_ok_iff.mpr ⟨enabled, accepted, rfl⟩, rfl, ?_⟩
  exact (enables_exactly plain filled lists registered isEnabled).1

/-- After any history, the linter name of a class finds the first class that
has this linter name, and gives its options.  All classes are found by their
linter names exactly if these differ.  Enabling all known linter names selects
exactly the classes that are found by their own. -/
theorem linter_name_finds_first (calls : List Call) :
    (∀ linterClass ∈ (after calls).classes, ∃ first,
      ((after calls).classes.find? fun other =>
        other.linterName = linterClass.linterName) = some first ∧
      (after calls).find? linterClass.linterName = some first ∧
      ∀ config : RunnerConfig, config.registry = after calls →
        config.forLinter linterClass.linterName =
          config.forLinter first.name) ∧
    ((∀ linterClass ∈ (after calls).classes,
      (after calls).find? linterClass.linterName = some linterClass) ↔
      (after calls).linterNames.Nodup) ∧
    ∀ (workspace : Workspace) (requested : Option Path)
      (loaded : RunnerConfig) (patterns : List String) (options : Options),
      workspace.registry = after calls →
      (loadConfig workspace requested).result = .ok loaded →
      loaded.entries.Lists patterns →
      ∃ config,
        (applyEnabling { options with
          enableAllLinters := false
          enableLinters := some (after calls).linterNames } loaded).result =
          .ok config ∧
        config.registry = after calls ∧
        Selects config fun linterClass =>
          (after calls).find? linterClass.linterName = some linterClass := by
  have filled := filled_after calls
  refine ⟨?_, filled.all_found_iff_nodup, ?_⟩
  · intro linterClass member
    obtain ⟨first, found⟩ := exists_find?_linterName member
    refine ⟨first, ?_, found, fun config same =>
      filled.forLinter_linterName found same⟩
    rw [← find?_linterName, found]
  · intro workspace requested loaded patterns options same isLoaded lists
    exact filled.selects_known same isLoaded lists options

/-! ## Two classes of one linter name -/

def acronym : LinterClass := .described 1 "ABC" false []

def word : LinterClass := .described 2 "Abc" false []

theorem after_register_acronym_word :
    after [.register acronym, .register word] = ⟨[acronym, word]⟩ := by
  have free : register ⟨[acronym]⟩ word = .ok ⟨[acronym, word]⟩ := by
    rw [register_eq_ok_iff]
    refine ⟨?_, rfl⟩
    have unanswered : acronym.answersTo word.name = false := by decide +kernel
    simpa using unanswered
  rw [after, List.foldl_cons, List.foldl_cons, List.foldl_nil]
  rw [show empty.call (.register acronym) = ⟨[acronym]⟩ from rfl, call, free]

/-- A class whose linter name an earlier one has is registered, but not found
by that name, and enabling all known names does not enable it. -/
theorem linter_name_hides_word :
    let registry := after [.register acronym, .register word]
    word ∈ registry.classes ∧
      registry.find? word.linterName ≠ some word ∧
      ∃ enabled, (resolveNames registry registry.linterNames).result =
        .ok enabled ∧ word ∉ enabled := by
  rw [after_register_acronym_word]
  have same : word.linterName = acronym.linterName := by decide +kernel
  have found : find? ⟨[acronym, word]⟩ acronym.linterName = some acronym := by
    simp [find?_linterName]
  have different : word ≠ acronym := by
    intro equal
    exact absurd (congrArg LinterClass.serial equal) (by decide)
  refine ⟨by simp, ?_, [acronym, acronym], ?_, by simpa using different⟩
  · rw [same, found]
    exact fun equal => different (Option.some.inj equal).symm
  · rw [resolveNames_result_eq_ok_iff]
    simp [linterNames, same, found]

end TemplateLint.Registry
