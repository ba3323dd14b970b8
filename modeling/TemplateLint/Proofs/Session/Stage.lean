import TemplateLint.Session

/-!
# Parts of a session

How the parts of a session follow one another: a part that halts is the last
one, and the events of the parts add up.  A session is its plan, which finds
out what to lint, followed by the linting of what was planned.
-/

namespace TemplateLint

/-- Whether an event writes to the output stream. -/
def Event.IsOutput : Event → Prop
  | .out _ _ => True
  | .err _ | .note _ => False

namespace Stage

variable {α β : Type}

theorem ext {first second : Stage α} (events : first.events = second.events)
    (result : first.result = second.result) : first = second := by
  cases first
  cases second
  cases events
  cases result
  rfl

theorem bind_of_ok {stage : Stage α} {value : α}
    (done : stage.result = .ok value) (next : α → Stage β) :
    stage >>= next =
      ⟨stage.events ++ (next value).events, (next value).result⟩ := by
  show stage.andThen next = _
  simp only [andThen, done]

theorem bind_of_error {stage : Stage α} {halt : Halt}
    (halted : stage.result = .error halt) (next : α → Stage β) :
    stage >>= next = ⟨stage.events, .error halt⟩ := by
  show stage.andThen next = _
  simp only [andThen, halted]

@[simp] theorem pure_events (value : α) :
    (pure value : Stage α).events = [] := rfl

@[simp] theorem pure_result (value : α) :
    (pure value : Stage α).result = .ok value := rfl

@[simp] theorem fail_events (kind : FailureKind) (message : Text)
    (stats : Stats) :
    (fail kind message stats : Stage α).events = [] := rfl

@[simp] theorem fail_result (kind : FailureKind) (message : Text)
    (stats : Stats) :
    (fail kind message stats : Stage α).result =
      .error (.ended { stats, failure := some ⟨kind, message⟩ }) := rfl

@[simp] theorem crash_events (error : Crash) :
    (crash error : Stage α).events = [] := rfl

@[simp] theorem crash_result (error : Crash) :
    (crash error : Stage α).result = .error (.crashed error) := rfl

@[simp] theorem tell_events (events : List Event) :
    (tell events).events = events := rfl

@[simp] theorem tell_result (events : List Event) :
    (tell events).result = .ok () := rfl

theorem bind_result_eq_ok_iff {stage : Stage α} {next : α → Stage β}
    {value : β} :
    (stage >>= next).result = .ok value ↔
      ∃ middle, stage.result = .ok middle ∧ (next middle).result = .ok value := by
  cases done : stage.result with
  | error halt =>
      rw [bind_of_error done]
      simp
  | ok middle =>
      rw [bind_of_ok done]
      simp

theorem bind_congr {stage : Stage α} {first second : α → Stage β}
    (same : ∀ value, stage.result = .ok value → first value = second value) :
    stage >>= first = stage >>= second := by
  cases done : stage.result with
  | error halt => rw [bind_of_error done, bind_of_error done]
  | ok value => rw [bind_of_ok done, bind_of_ok done, same value done]

theorem bind_assoc {γ : Type} (stage : Stage α) (next : α → Stage β)
    (last : β → Stage γ) :
    stage >>= next >>= last = stage >>= fun value => next value >>= last := by
  cases done : stage.result with
  | error halt =>
      rw [bind_of_error done, bind_of_error done, bind_of_error rfl]
  | ok value =>
      rw [bind_of_ok done, bind_of_ok done]
      cases doneNext : (next value).result with
      | error halt => rw [bind_of_error rfl, bind_of_error doneNext]
      | ok middle =>
          rw [bind_of_ok rfl, bind_of_ok doneNext]
          simp only [List.append_assoc]

/-! ## Parts that come before the report -/

/-- A part that writes nothing to the output stream. -/
def Quiet (stage : Stage α) : Prop :=
  ∀ event ∈ stage.events, ¬event.IsOutput

theorem Quiet.bind {stage : Stage α} {next : α → Stage β}
    (first : stage.Quiet)
    (later : ∀ value, stage.result = .ok value → (next value).Quiet) :
    (stage >>= next).Quiet := by
  intro event member
  cases done : stage.result with
  | error halt =>
      rw [bind_of_error done] at member
      exact first event member
  | ok value =>
      rw [bind_of_ok done] at member
      rcases List.mem_append.mp member with early | late
      · exact first event early
      · exact later value done event late

/-- A part that writes nothing to the output stream and ends the session only
with a failure. -/
structure Guarded (stage : Stage α) : Prop where
  quiet : stage.Quiet
  fails : ∀ outcome, stage.result = .error (.ended outcome) →
    outcome.failure ≠ none

theorem guarded_of_ok {stage : Stage α} {value : α} (quiet : stage.Quiet)
    (done : stage.result = .ok value) : stage.Guarded := by
  refine ⟨quiet, ?_⟩
  intro outcome ended
  rw [done] at ended
  contradiction

theorem guarded_pure (value : α) : (pure value : Stage α).Guarded :=
  guarded_of_ok (fun _ member => absurd member List.not_mem_nil) rfl

theorem guarded_tell {events : List Event}
    (quiet : ∀ event ∈ events, ¬event.IsOutput) : (tell events).Guarded :=
  guarded_of_ok quiet rfl

theorem guarded_fail (kind : FailureKind) (message : Text) (stats : Stats) :
    (fail kind message stats : Stage α).Guarded := by
  refine ⟨fun _ member => absurd member List.not_mem_nil, ?_⟩
  intro outcome ended
  cases ended
  simp

theorem guarded_crash (error : Crash) : (crash error : Stage α).Guarded := by
  refine ⟨fun _ member => absurd member List.not_mem_nil, ?_⟩
  intro outcome ended
  cases ended

theorem Guarded.bind {stage : Stage α} {next : α → Stage β}
    (first : stage.Guarded)
    (later : ∀ value, stage.result = .ok value → (next value).Guarded) :
    (stage >>= next).Guarded := by
  refine ⟨first.quiet.bind fun value done => (later value done).quiet, ?_⟩
  intro outcome ended
  cases done : stage.result with
  | error halt =>
      rw [bind_of_error done] at ended
      cases ended
      exact first.fails outcome done
  | ok value =>
      rw [bind_of_ok done] at ended
      exact (later value done).fails outcome ended

/-- A part that, if it halts, is guarded. -/
def GuardedUnlessDone (stage : Stage α) : Prop :=
  ∀ halt, stage.result = .error halt → stage.Guarded

theorem Guarded.unlessDone {stage : Stage α} (guarded : stage.Guarded) :
    stage.GuardedUnlessDone :=
  fun _ _ => guarded

theorem guardedUnlessDone_of_ok {stage : Stage α} {value : α}
    (done : stage.result = .ok value) : stage.GuardedUnlessDone := by
  intro halt halted
  rw [done] at halted
  contradiction

theorem Guarded.bind_unlessDone {stage : Stage α} {next : α → Stage β}
    (first : stage.Guarded)
    (later : ∀ value, stage.result = .ok value →
      (next value).GuardedUnlessDone) :
    (stage >>= next).GuardedUnlessDone := by
  intro halt halted
  apply first.bind
  intro value done
  rw [bind_of_ok done] at halted
  exact later value done halt halted

end Stage

namespace Session

/-! ## Plans -/

/-- What a session finds out before it lints. -/
structure Plan where
  preparation : Preparation
  classes : List LinterClass
  files : List String

/-- The configuration, the linters and the files of a session. -/
def plan (workspace : Workspace) (options : Options) : Stage Plan := do
  let preparation ← prepare workspace options
  let classes ← selectLinters preparation.config
  let files ← discover workspace options preparation.config
  return ⟨preparation, classes, files⟩

section Results

variable {workspace : Workspace} {options : Options}

/-- What goes into a preparation. -/
theorem prepare_result_eq_ok_iff {preparation : Preparation} :
    (prepare workspace options).result = .ok preparation ↔
      (parseFailLevel options.failLevel).result = .ok preparation.failLevel ∧
      (parseFormat options.format).result = .ok preparation.format ∧
      ∃ loaded, (loadConfig workspace options.config).result = .ok loaded ∧
        (applyEnabling options loaded).result = .ok preparation.config := by
  simp only [prepare, Stage.bind_result_eq_ok_iff, Stage.pure_result]
  constructor
  · rintro ⟨failLevel, parsed, format, formatted, loaded, isLoaded, config,
      applied, ⟨⟩⟩
    exact ⟨parsed, formatted, loaded, isLoaded, applied⟩
  · rintro ⟨parsed, formatted, loaded, isLoaded, applied⟩
    exact ⟨_, parsed, _, formatted, loaded, isLoaded, _, applied, rfl⟩

/-- What goes into a plan. -/
theorem plan_result_eq_ok_iff {plan : Plan} :
    (Session.plan workspace options).result = .ok plan ↔
      (prepare workspace options).result = .ok plan.preparation ∧
      (selectLinters plan.preparation.config).result = .ok plan.classes ∧
      (discover workspace options plan.preparation.config).result =
        .ok plan.files := by
  simp only [Session.plan, Stage.bind_result_eq_ok_iff, Stage.pure_result]
  constructor
  · rintro ⟨preparation, prepared, classes, selected, files, discovered, ⟨⟩⟩
    exact ⟨prepared, selected, discovered⟩
  · rintro ⟨prepared, selected, discovered⟩
    exact ⟨_, prepared, _, selected, _, discovered, rfl⟩

end Results

/-- The engine of a plan. -/
def Plan.engine (plan : Plan) (workspace : Workspace) :
    Except ConfigError Engine :=
  Engine.build plan.preparation.config plan.classes
    workspace.directory.toString

/-- The part of a session after its plan. -/
def finish (workspace : Workspace) (options : Options) (plan : Plan) :
    Stage (Outcome × List FileResult) :=
  if plan.files.isEmpty then
    if options.allowNoFiles then do
      Stage.tell [.err noFilesMessage]
      return ({}, [])
    else Stage.fail .noFiles noFilesMessage
  else do
    let engine ← configResult (plan.engine workspace)
    lint workspace options engine plan.files plan.preparation

/-- A session is its plan and what follows. -/
theorem stages_eq_plan (workspace : Workspace) (options : Options) :
    stages workspace options =
      plan workspace options >>= finish workspace options := by
  simp only [stages, plan, Stage.bind_assoc]
  rfl

end Session

end TemplateLint
