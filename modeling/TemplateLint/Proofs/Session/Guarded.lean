import TemplateLint.Proofs.Session.Stage

/-!
# Nothing is reported before the end

Every part of a session up to the report writes nothing to the output stream,
and ends the session only with a failure.  So a session that halts has
reported nothing.
-/

namespace TemplateLint.Session

open Stage

theorem guarded_configResult (result : Except ConfigError α) :
    (configResult result).Guarded := by
  cases result with
  | ok value => exact guarded_pure value
  | error error =>
      cases error with
      | invalidOption linterName error => exact guarded_fail _ _ _
      | _ => exact guarded_crash _

/-! ## Planning -/

theorem guarded_parseFailLevel (level : Option String) :
    (parseFailLevel level).Guarded := by
  unfold parseFailLevel
  split
  · exact guarded_pure _
  · split
    · exact guarded_pure _
    · exact guarded_fail _ _ _

theorem guarded_parseFormat (name : String) : (parseFormat name).Guarded := by
  unfold parseFormat
  split
  · exact guarded_pure _
  · exact guarded_fail _ _ _

theorem guarded_readConfig (workspace : Workspace) (path : Path)
    (bytes : Utf8.Bytes) : (readConfig workspace path bytes).Guarded := by
  unfold readConfig
  split
  · apply Guarded.bind
    · exact guarded_tell (by simp [Event.IsOutput])
    · intro _ _
      exact guarded_pure _
  · exact guarded_fail _ _ _
  · exact guarded_crash _

theorem guarded_loadConfig (workspace : Workspace) (requested : Option Path) :
    (loadConfig workspace requested).Guarded := by
  unfold loadConfig
  dsimp only
  split
  · exact guarded_readConfig _ _ _
  · split
    · exact guarded_fail _ _ _
    · apply Guarded.bind
      · exact guarded_tell (by simp [Event.IsOutput])
      · intro _ _
        exact guarded_pure _

theorem guarded_resolveNames (registry : Registry) (names : List String) :
    (resolveNames registry names).Guarded := by
  induction names with
  | nil => exact guarded_pure _
  | cons name later induction =>
      rw [resolveNames]
      split
      · apply Guarded.bind induction
        intro _ _
        exact guarded_pure _
      · exact guarded_fail _ _ _

theorem guarded_applyEnabling (options : Options) (config : RunnerConfig) :
    (applyEnabling options config).Guarded := by
  unfold applyEnabling
  split
  · exact guarded_pure _
  · split
    · exact guarded_pure _
    · apply Guarded.bind (guarded_resolveNames _ _)
      intro _ _
      exact guarded_pure _

theorem guarded_prepare (workspace : Workspace) (options : Options) :
    (prepare workspace options).Guarded := by
  apply Guarded.bind (guarded_parseFailLevel _)
  intro failLevel _
  apply Guarded.bind (guarded_parseFormat _)
  intro format _
  apply Guarded.bind (guarded_loadConfig _ _)
  intro loaded _
  apply Guarded.bind (guarded_applyEnabling _ _)
  intro config _
  exact guarded_pure _

theorem guarded_findFiles (workspace : Workspace) (options : Options)
    (config : RunnerConfig) : (findFiles workspace options config).Guarded := by
  unfold findFiles
  dsimp only
  split
  · exact guarded_of_ok (by simp [Quiet, Event.IsOutput]) rfl
  · exact guarded_fail _ _ _
  · exact guarded_crash _

theorem guarded_excludeFiles (workspace : Workspace) (config : RunnerConfig)
    (files : List String) : (excludeFiles workspace config files).Guarded := by
  apply Guarded.bind (guarded_configResult _)
  intro patterns _
  dsimp only
  split
  · exact guarded_crash _
  · exact guarded_pure _

theorem guarded_discover (workspace : Workspace) (options : Options)
    (config : RunnerConfig) : (discover workspace options config).Guarded := by
  have search : (findFiles workspace options config >>=
      excludeFiles workspace config).Guarded :=
    (guarded_findFiles workspace options config).bind
      fun found _ => guarded_excludeFiles workspace config found
  unfold discover
  split
  · split
    · apply Guarded.bind (guarded_fail _ _ _)
      intro _ _
      exact search
    · exact search
  · exact search

theorem guarded_plan (workspace : Workspace) (options : Options) :
    (plan workspace options).Guarded := by
  apply Guarded.bind (guarded_prepare _ _)
  intro preparation _
  apply Guarded.bind (guarded_configResult _)
  intro classes _
  apply Guarded.bind (guarded_discover _ _ _)
  intro files _
  exact guarded_pure _

/-! ## Linting -/

theorem guarded_lintFile (workspace : Workspace) (options : Options)
    (engine : Engine) (linted : Linted) (filename : String) :
    (lintFile workspace options engine linted filename).Guarded := by
  unfold lintFile
  split
  · exact guarded_fail _ _ _
  · apply Guarded.bind
    · exact guarded_tell (by simp [Event.IsOutput])
    · intro _ _
      split
      · exact guarded_fail _ _ _
      · exact guarded_pure _

theorem guarded_lintFiles (workspace : Workspace) (options : Options)
    (engine : Engine) (linted : Linted) (files : List String) :
    (lintFiles workspace options engine linted files).Guarded := by
  induction files generalizing linted with
  | nil => exact guarded_pure _
  | cons filename later induction =>
      apply Guarded.bind (guarded_lintFile _ _ _ _ _)
      intro next _
      exact induction next

/-- What follows the linting of the files cannot halt. -/
theorem guardedUnlessDone_lint (workspace : Workspace) (options : Options)
    (engine : Engine) (files : List String) (preparation : Preparation) :
    (lint workspace options engine files preparation).GuardedUnlessDone := by
  apply Guarded.bind_unlessDone
  · apply guarded_tell
    intro event member
    cases preview : preparation.format.preview?
        ⟨options.autocorrect, options.showLinterNames, workspace.metadata⟩
        (initialStats engine files) with
    | none => simp [unlessEmpty, preview] at member
    | some text =>
        by_cases blank : text.isEmpty
        · simp [unlessEmpty, preview, blank] at member
        · have shown : event = .err text := by
            simpa [unlessEmpty, preview, blank] using member
          simp [shown, Event.IsOutput]
  · intro _ _
    apply Guarded.bind_unlessDone (guarded_lintFiles _ _ _ _ _)
    intro linted _
    exact guardedUnlessDone_of_ok rfl

theorem guardedUnlessDone_finish (workspace : Workspace) (options : Options)
    (plan : Plan) : (finish workspace options plan).GuardedUnlessDone := by
  unfold finish
  split
  · split
    · exact guardedUnlessDone_of_ok rfl
    · exact (guarded_fail _ _ _).unlessDone
  · apply Guarded.bind_unlessDone (guarded_configResult _)
    intro engine _
    exact guardedUnlessDone_lint _ _ _ _ _

/-- A session that halts has reported nothing and, unless it crashed, ends
with a failure. -/
theorem guardedUnlessDone_stages (workspace : Workspace) (options : Options) :
    (stages workspace options).GuardedUnlessDone := by
  rw [stages_eq_plan]
  exact (guarded_plan workspace options).bind_unlessDone
    fun plan _ => guardedUnlessDone_finish workspace options plan

end TemplateLint.Session
