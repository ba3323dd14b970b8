import TemplateLint.Engine
import TemplateLint.Proofs.Linter.Builtin

/-!
# Building engines

An engine has its classes in order, each with the options that its
configuration gives it.
-/

namespace TemplateLint

namespace RunnerConfig

variable {config : RunnerConfig} {name : String} {linterClass : LinterClass}
  {options : LinterConfig}

/-- The options of a class that is found under a name fit its schema. -/
theorem own_fits_of_forLinter
    (found : config.registry.find? name = some linterClass)
    (resolved : config.forLinter name = .ok options) :
    options.own.Fits linterClass.schema := by
  rw [forLinter, found] at resolved
  cases collected : config.sectionWithExcludes linterClass.name with
  | error error => simp [collected, bind, Except.bind] at resolved
  | ok entries =>
      cases result : LinterConfig.resolve linterClass.schema entries with
      | error error => simp [collected, result, bind, Except.bind] at resolved
      | ok given =>
          simp only [collected, result, bind, Except.bind, pure, Except.pure,
            Except.ok.injEq] at resolved
          subst resolved
          exact LinterConfig.own_fits_of_resolve result

end RunnerConfig

namespace Engine

variable {config : RunnerConfig} {classes : List LinterClass}
  {basePath : String} {engine : Engine} {linterClass : LinterClass}
  {options : LinterConfig}

theorem mapM_forLinter_eq_ok_iff {linters : List (LinterClass × LinterConfig)} :
    (classes.mapM fun linterClass => do
        let options ← config.forLinter linterClass.name
        return (linterClass, options)) = .ok linters ↔
      linters.map (·.1) = classes ∧
        ∀ linter ∈ linters, config.forLinter linter.1.name = .ok linter.2 := by
  induction classes generalizing linters with
  | nil =>
      rw [List.mapM_nil]
      constructor
      · intro resolved
        cases resolved
        simp
      · rintro ⟨none_left, -⟩
        rw [List.map_eq_nil_iff.mp none_left]
        rfl
  | cons first classes induction =>
      rw [List.mapM_cons]
      constructor
      · intro resolved
        cases given : config.forLinter first.name with
        | error error => simp [given, bind, Except.bind] at resolved
        | ok options =>
            cases later : classes.mapM fun linterClass => do
                let options ← config.forLinter linterClass.name
                return (linterClass, options) with
            | error error =>
                simp only [given, bind, Except.bind, pure, Except.pure]
                  at later resolved
                simp [later] at resolved
            | ok others =>
                obtain ⟨sameClasses, all⟩ := induction.mp later
                simp only [given, bind, Except.bind, pure, Except.pure]
                  at later resolved
                simp only [later, Except.ok.injEq] at resolved
                subst resolved
                exact ⟨by rw [List.map_cons, sameClasses],
                  List.forall_mem_cons.mpr ⟨given, all⟩⟩
      · rintro ⟨sameClasses, all⟩
        cases linters with
        | nil => contradiction
        | cons linter linters =>
            obtain ⟨rfl, rest⟩ := List.cons.inj sameClasses
            obtain ⟨given, others⟩ := List.forall_mem_cons.mp all
            have later := induction.mpr ⟨rest, others⟩
            simp only [bind, Except.bind, pure, Except.pure] at later ⊢
            simp only [given, later]

/-- An engine has its classes in order, and their options. -/
theorem build_eq_ok_iff :
    build config classes basePath = .ok engine ↔
      engine.linters.map (·.1) = classes ∧
        (∀ linter ∈ engine.linters,
          config.forLinter linter.1.name = .ok linter.2) ∧
        engine.basePath = basePath := by
  obtain ⟨linters, base⟩ := engine
  rw [← and_assoc, ← mapM_forLinter_eq_ok_iff, build]
  cases classes.mapM fun linterClass => do
      let options ← config.forLinter linterClass.name
      return (linterClass, options) with
  | error error => simp [bind, Except.bind]
  | ok resolved => simp [bind, Except.bind, pure, Except.pure, eq_comm]

/-- Every class of an engine has its options. -/
theorem exists_options_of_build
    (built : build config classes basePath = .ok engine)
    (member : linterClass ∈ classes) :
    ∃ options, config.forLinter linterClass.name = .ok options := by
  obtain ⟨rfl, resolved, -⟩ := build_eq_ok_iff.mp built
  obtain ⟨linter, inLinters, rfl⟩ := List.mem_map.mp member
  exact ⟨linter.2, resolved linter inLinters⟩

/-- An engine has the linters of its classes, each with its options. -/
theorem mem_linters_iff_of_build
    (built : build config classes basePath = .ok engine) :
    (linterClass, options) ∈ engine.linters ↔
      linterClass ∈ classes ∧ config.forLinter linterClass.name = .ok options := by
  obtain ⟨rfl, resolved, -⟩ := build_eq_ok_iff.mp built
  constructor
  · intro member
    exact ⟨List.mem_map.mpr ⟨_, member, rfl⟩, resolved _ member⟩
  · rintro ⟨member, given⟩
    obtain ⟨⟨_, own⟩, inLinters, rfl⟩ := List.mem_map.mp member
    have same := (resolved _ inLinters).symm.trans given
    rw [Except.ok.injEq] at same
    rwa [← same]

end Engine

end TemplateLint
