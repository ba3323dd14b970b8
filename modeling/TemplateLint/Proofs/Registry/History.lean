import Mathlib.Data.List.Induction
import TemplateLint.Proofs.Config.Excludes
import TemplateLint.Registry.Module

/-!
# Histories of a registry

A registry grows by registering classes and by loading directories of modules,
and either of the two can break off.  Whatever its history, every class is
found under its own name, and a name that finds a class finds it for ever.
-/

namespace TemplateLint

/-! ## Loads -/

/-- What a load comes to, one after the other: a class to be registered, or a
module that cannot be loaded. -/
inductive Attempt where
  | registers (linterClass : LinterClass) (file : String)
  | stops (error : LoadError)

/-- What a module file comes to: the classes that it defines, unless it
fails. -/
def Attempt.ofModule (definitions : List Definition) (file : String) :
    List Attempt :=
  match Definition.ownClasses definitions with
  | .error error => [.stops error]
  | .ok classes => classes.map (.registers · file)

/-- What the modules of a directory come to, in the order of their names. -/
def Attempt.ofDirectory (tree : FileTree) (modules : Modules)
    (workingDirectory directory : Path) : List Attempt :=
  match tree.locate? (workingDirectory.under directory).components with
  | none => []
  | some location =>
      if tree.isDirectoryAt location then
        (moduleNames tree location).flatMap fun name =>
          let file := (directory.under (Path.ofString name)).toString
          if tree.isDirectoryAt (location ++ [name]) then
            [.stops (.moduleIsDirectory file)]
          else ofModule (modules.definitionsAt (location ++ [name])) file
      else []

namespace Loading

/-- A load after one more attempt. -/
def attempt (loading : Loading) : Attempt → Loading
  | .registers linterClass file => loading.register file linterClass
  | .stops error =>
      match loading.failure with
      | some _ => loading
      | none => { loading with failure := some error }

theorem attempt_of_failure {loading : Loading} {error : LoadError}
    (failed : loading.failure = some error) (next : Attempt) :
    loading.attempt next = loading := by
  cases next with
  | registers linterClass file => simp only [attempt, register, failed]
  | stops error => simp only [attempt, failed]

theorem foldl_attempt_of_failure {loading : Loading} {error : LoadError}
    (failed : loading.failure = some error) (attempts : List Attempt) :
    attempts.foldl attempt loading = loading := by
  induction attempts with
  | nil => rfl
  | cons next attempts induction =>
      rw [List.foldl_cons, attempt_of_failure failed, induction]

theorem loadModule_eq_foldl (definitions : List Definition) (file : String)
    (loading : Loading) :
    loading.loadModule definitions file =
      (Attempt.ofModule definitions file).foldl attempt loading := by
  cases failed : loading.failure with
  | some error =>
      rw [foldl_attempt_of_failure failed]
      simp only [loadModule, failed]
  | none =>
      rw [Attempt.ofModule]
      cases own : Definition.ownClasses definitions with
      | error error => simp [loadModule, attempt, failed, own]
      | ok classes =>
          simp only [loadModule, failed, own, List.foldl_map]
          rfl

end Loading

namespace Registry

variable {registry : Registry} {linterClass : LinterClass}

/-- A load makes its attempts one after the other. -/
theorem load_eq_foldl (registry : Registry) (tree : FileTree)
    (modules : Modules) (workingDirectory directory : Path) :
    registry.load tree modules workingDirectory directory =
      (Attempt.ofDirectory tree modules workingDirectory directory).foldl
        Loading.attempt ⟨registry, [], none⟩ := by
  simp only [load, Attempt.ofDirectory]
  cases tree.locate? (workingDirectory.under directory).components with
  | none => rfl
  | some location =>
      dsimp only
      split
      · rw [List.foldl_flatMap]
        congr 1
        funext loading name
        split
        · rfl
        · exact Loading.loadModule_eq_foldl _ _ _
      · rfl

theorem registerAll_concat (registry : Registry) (classes : List LinterClass)
    (linterClass : LinterClass) :
    registry.registerAll (classes ++ [linterClass]) =
      registry.registerAll classes >>= fun next =>
        next.register linterClass := by
  simp [registerAll]

/-- A load has registered what it came to, in order, up to the first attempt
that failed: a module that cannot be loaded, or a class whose name was taken by
then. -/
structure LoadsUntilFailure (registry : Registry) (attempts : List Attempt)
    (loading : Loading) : Prop where
  registered : registry.registerAll (loading.loaded.map (·.1)) =
    .ok loading.registry
  inOrder : loading.registry.classes =
    registry.classes ++ loading.loaded.map (·.1)
  complete : loading.failure = none →
    attempts = loading.loaded.map fun loaded => .registers loaded.1 loaded.2
  stopped : ∀ error, loading.failure = some error →
    ∃ failed later, attempts =
        loading.loaded.map (fun loaded => .registers loaded.1 loaded.2)
          ++ failed :: later ∧
      (failed = .stops error ∨
        ∃ linterClass file, failed = .registers linterClass file ∧
          loading.registry.contains linterClass.name = true ∧
          error = .nameTaken ⟨linterClass.name⟩)

/-- One more attempt keeps to this. -/
theorem LoadsUntilFailure.attempt {attempts : List Attempt} {loading : Loading}
    (loads : registry.LoadsUntilFailure attempts loading) (next : Attempt) :
    registry.LoadsUntilFailure (attempts ++ [next]) (loading.attempt next) := by
  cases failed : loading.failure with
  | some error =>
      -- attempts behind a failure only make the rest longer
      rw [Loading.attempt_of_failure failed]
      refine ⟨loads.registered, loads.inOrder, ?_, ?_⟩
      · intro complete
        rw [failed] at complete
        contradiction
      · intro other failedToo
        obtain ⟨first, later, rfl, reason⟩ := loads.stopped other failedToo
        exact ⟨first, later ++ [next], by simp, reason⟩
  | none =>
      have complete := loads.complete failed
      cases next with
      | stops error =>
          simp only [Loading.attempt, failed]
          refine ⟨loads.registered, loads.inOrder, by simp, ?_⟩
          rintro other same
          cases same
          exact ⟨.stops error, [], by rw [complete], .inl rfl⟩
      | registers linterClass file =>
          simp only [Loading.attempt, Loading.register, failed]
          cases result : loading.registry.register linterClass with
          | error error =>
              refine ⟨loads.registered, loads.inOrder, by simp, ?_⟩
              rintro other same
              cases same
              refine ⟨.registers linterClass file, [], by rw [complete], .inr ?_⟩
              rw [register] at result
              split at result
              · rename_i taken
                cases result
                exact ⟨linterClass, file, rfl, taken, rfl⟩
              · contradiction
          | ok later =>
              obtain ⟨-, rfl⟩ := register_eq_ok_iff.mp result
              refine ⟨?_, ?_, ?_, by simp⟩
              · rw [List.map_append, List.map_singleton, registerAll_concat,
                  loads.registered]
                exact result
              · simp [loads.inOrder]
              · intro _
                simp [complete]

theorem loadsUntilFailure_load (registry : Registry) (tree : FileTree)
    (modules : Modules) (workingDirectory directory : Path) :
    registry.LoadsUntilFailure
      (Attempt.ofDirectory tree modules workingDirectory directory)
      (registry.load tree modules workingDirectory directory) := by
  rw [load_eq_foldl]
  generalize Attempt.ofDirectory tree modules workingDirectory directory =
    attempts
  induction attempts using List.reverseRecOn with
  | nil => exact ⟨rfl, by simp, fun _ => rfl, by simp⟩
  | append_singleton attempts next induction =>
      rw [List.foldl_append]
      exact induction.attempt next

/-! ## Histories -/

/-- A call that may change a registry. -/
inductive Call where
  | register (linterClass : LinterClass)
  | load (tree : FileTree) (modules : Modules)
      (workingDirectory directory : Path)

/-- The registry after a call, whether or not the call fails. -/
def call (registry : Registry) : Call → Registry
  | .register linterClass =>
      match registry.register linterClass with
      | .ok later => later
      | .error _ => registry
  | .load tree modules workingDirectory directory =>
      (registry.load tree modules workingDirectory directory).registry

/-- The registry after a history of calls. -/
def after (calls : List Call) : Registry := calls.foldl call .empty

theorem after_concat (calls : List Call) (next : Call) :
    after (calls ++ [next]) = (after calls).call next := by
  rw [after, List.foldl_append]
  rfl

theorem Filled.call (filled : Filled registry) (next : Call) :
    Filled (registry.call next) := by
  cases next with
  | register linterClass =>
      rw [Registry.call]
      split
      · exact filled.register ‹_›
      · exact filled
  | load tree modules workingDirectory directory =>
      exact filled.registerAll (loadsUntilFailure_load _ _ _ _ _).registered

/-- Registries of all histories are filled by registering. -/
theorem filled_after (calls : List Call) : Filled (after calls) := by
  induction calls using List.reverseRecOn with
  | nil => exact .empty
  | append_singleton calls next induction =>
      rw [after_concat]
      exact induction.call next

/-- A call adds classes behind those there are. -/
theorem call_appends (registry : Registry) (next : Call) :
    ∃ added, (registry.call next).classes = registry.classes ++ added := by
  cases next with
  | register linterClass =>
      rw [call]
      split
      · rename_i later registered
        exact ⟨[linterClass], by rw [(register_eq_ok_iff.mp registered).2]⟩
      · exact ⟨[], (List.append_nil _).symm⟩
  | load tree modules workingDirectory directory =>
      exact ⟨_, (loadsUntilFailure_load _ _ _ _ _).inOrder⟩

theorem find?_call {name : String} (next : Call)
    (found : registry.find? name = some linterClass) :
    (registry.call next).find? name = some linterClass := by
  obtain ⟨added, classes⟩ := registry.call_appends next
  have same : registry.call next = ⟨registry.classes ++ added⟩ := by
    rw [← classes]
  rw [same]
  exact find?_append added found

/-- After any history, classes have different names, and each is found under
its own, so that its options are read by its own schema.  A class that is
refused changes nothing, and one that is not comes last.  A load registers what
it comes to, in order, up to its first failure.  A name that finds a class
finds it whatever is called later. -/
theorem lookup_exact_and_stable (calls : List Call) :
    ((after calls).classes.Pairwise fun first second =>
      first.name ≠ second.name) ∧
    (∀ linterClass ∈ (after calls).classes,
      (after calls).find? linterClass.name = some linterClass ∧
      ∀ config : RunnerConfig, config.registry = after calls →
        config.forLinter linterClass.name =
          config.sectionWithExcludes linterClass.name >>= fun entries =>
            (LinterConfig.resolve linterClass.schema entries).mapError
              (.invalidOption linterClass.name)) ∧
    (∀ linterClass error, (after calls).register linterClass = .error error →
      after (calls ++ [.register linterClass]) = after calls) ∧
    (∀ linterClass later, (after calls).register linterClass = .ok later →
      after (calls ++ [.register linterClass]) = later ∧
      later.classes = (after calls).classes ++ [linterClass]) ∧
    (∀ tree modules workingDirectory directory,
      let loading :=
        (after calls).load tree modules workingDirectory directory
      after (calls ++ [.load tree modules workingDirectory directory]) =
        loading.registry ∧
      (after calls).LoadsUntilFailure
        (Attempt.ofDirectory tree modules workingDirectory directory)
        loading) ∧
    ∀ name linterClass, (after calls).find? name = some linterClass →
      ∀ more, (after (calls ++ more)).find? name = some linterClass := by
  have filled := filled_after calls
  refine ⟨filled.names_differ, ?_, ?_, ?_, ?_, ?_⟩
  · intro linterClass member
    have found := filled.find?_name member
    refine ⟨found, ?_⟩
    rintro config same
    rw [← same] at found
    exact RunnerConfig.forLinter_of_found found
  · intro linterClass error refused
    rw [after_concat, call, refused]
  · intro linterClass later registered
    refine ⟨?_, by rw [(register_eq_ok_iff.mp registered).2]⟩
    rw [after_concat, call, registered]
  · intro tree modules workingDirectory directory loading
    exact ⟨after_concat _ _, loadsUntilFailure_load _ _ _ _ _⟩
  · intro name linterClass found more
    induction more using List.reverseRecOn with
    | nil => rwa [List.append_nil]
    | append_singleton more next induction =>
        rw [← List.append_assoc, after_concat]
        exact find?_call next induction

end Registry

end TemplateLint
