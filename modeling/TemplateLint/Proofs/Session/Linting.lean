import Mathlib.Data.List.Forall2
import TemplateLint.Proofs.Engine.Iteration
import TemplateLint.Proofs.FileTree
import TemplateLint.Proofs.Session.Stage
import TemplateLint.Proofs.Text.Utf8

/-!
# What linting collects

Linting that does not halt has read every file and has a result for each.  It
collects the results in the order of the files, and the ones to be written are
those with a corrected text.
-/

namespace TemplateLint

namespace Engine

variable {engine : Engine} {workingDirectory : Path} {filename : String}
  {content : Text} {autocorrect : Bool} {result : FileResult}

/-- A result is made up of what the passes over the file leave. -/
theorem eq_of_runFile
    (done : (engine.runFile workingDirectory filename content
      autocorrect).outcome = .ok result) :
    ∃ progress last,
      engine.passes workingDirectory filename content autocorrect =
        ⟨progress, last⟩ ∧
      last.failure = none ∧
      result = ⟨filename, last.offenses,
        changedFrom content progress.content, progress.corrected,
        progress.dropped⟩ := by
  simp only [runFile] at done
  split at done
  · contradiction
  · rename_i quiet
    cases done
    exact ⟨_, _, rfl, quiet, rfl⟩

theorem filename_of_runFile
    (done : (engine.runFile workingDirectory filename content
      autocorrect).outcome = .ok result) :
    result.filename = filename := by
  obtain ⟨progress, last, -, -, rfl⟩ := eq_of_runFile done
  rfl

/-- Without correction there is no corrected text. -/
theorem correctedContent_of_uncorrected
    (done : (engine.runFile workingDirectory filename content false).outcome =
      .ok result) :
    result.correctedContent = none := by
  obtain ⟨progress, last, passed, -, rfl⟩ := eq_of_runFile done
  cases passed
  exact if_pos rfl

end Engine

namespace FileResult

/-- The text with which a file ends. -/
def finalText (result : FileResult) (content : Text) : Text :=
  result.correctedContent.getD content

variable {engine : Engine} {workingDirectory : Path} {filename : String}
  {content : Text} {autocorrect : Bool} {result : FileResult}

/-- The final text is the one that the passes reach. -/
theorem finalText_eq
    (done : (engine.runFile workingDirectory filename content
      autocorrect).outcome = .ok result) :
    result.finalText content =
      (engine.passes workingDirectory filename content
        autocorrect).progress.content := by
  obtain ⟨progress, last, passed, -, rfl⟩ := Engine.eq_of_runFile done
  rw [passed]
  by_cases same : progress.content = content
  · simp [finalText, Engine.changedFrom, same]
  · simp [finalText, Engine.changedFrom, same]

/-- The corrected text is the final one, if that differs from the text that
was read. -/
theorem correctedContent_eq
    (done : (engine.runFile workingDirectory filename content
      autocorrect).outcome = .ok result) :
    result.correctedContent =
      Engine.changedFrom content (result.finalText content) := by
  rw [finalText_eq done]
  obtain ⟨progress, last, passed, -, rfl⟩ := Engine.eq_of_runFile done
  rw [passed]

theorem modified_iff
    (done : (engine.runFile workingDirectory filename content
      autocorrect).outcome = .ok result) :
    result.modified ↔ result.finalText content ≠ content := by
  rw [modified, correctedContent_eq done, Engine.changedFrom]
  split <;> simp_all

/-- A modified file holds its final text. -/
theorem correctedContent_of_modified
    (done : (engine.runFile workingDirectory filename content
      autocorrect).outcome = .ok result)
    (modified : result.modified) :
    result.correctedContent = some (result.finalText content) := by
  rw [correctedContent_eq done, Engine.changedFrom,
    if_neg ((modified_iff done).mp modified)]

end FileResult

namespace Session

/-- A file is read and linted with a result. -/
structure Lints (workspace : Workspace) (options : Options) (engine : Engine)
    (filename : String) (content : Text) (result : FileResult) : Prop where
  read : readText workspace options filename = .ok content
  linted : (engine.runFile workspace.directory filename content
    options.autocorrect).outcome = .ok result

/-- The collection after the results for some files. -/
def collect (options : Options) (linted : Linted)
    (outcomes : List (Text × FileResult)) : Linted :=
  outcomes.foldl (fun linted outcome =>
    linted.add options outcome.1 outcome.2) linted

section Results

variable {workspace : Workspace} {options : Options} {engine : Engine}

theorem Lints.unique {filename : String} {content other : Text}
    {result otherResult : FileResult}
    (first : Lints workspace options engine filename content result)
    (second : Lints workspace options engine filename other otherResult) :
    content = other ∧ result = otherResult := by
  have sameText : content = other := by
    have read := first.read
    rw [second.read] at read
    cases read
    rfl
  subst sameText
  have outcome := first.linted
  rw [second.linted] at outcome
  cases outcome
  exact ⟨rfl, rfl⟩

/-- The text of a file is decoded from the bytes at the place of its name. -/
theorem Lints.exists_bytes {filename : String} {content : Text}
    {result : FileResult}
    (lints : Lints workspace options engine filename content result)
    (fromFiles : options.standardInput = none) :
    ∃ place bytes, workspace.tree.placeOf? filename = some place ∧
      workspace.tree.bytesAt? place = some bytes ∧
      Utf8.decode bytes = .ok content := by
  have read := lints.read
  cases held : workspace.tree.bytes? (Path.ofString filename).components with
  | none => simp [readText, fromFiles, held] at read
  | some bytes =>
      obtain ⟨place, leads, there⟩ := Option.bind_eq_some_iff.mp held
      refine ⟨place, bytes, leads, there, ?_⟩
      simp only [readText, fromFiles, held] at read
      cases decoded : Utf8.decode bytes with
      | error fault => simp [decoded, Except.mapError] at read
      | ok text => simpa [decoded, Except.mapError] using read

theorem readText_of_bytes {filename : String} {content : Text}
    {place : Location} {bytes : Utf8.Bytes}
    (fromFiles : options.standardInput = none)
    (leads : workspace.tree.placeOf? filename = some place)
    (held : workspace.tree.bytesAt? place = some bytes)
    (decoded : Utf8.decode bytes = .ok content) :
    readText workspace options filename = .ok content := by
  have found : workspace.tree.bytes? (Path.ofString filename).components =
      some bytes :=
    Option.bind_eq_some_iff.mpr ⟨place, leads, held⟩
  simp [readText, fromFiles, found, decoded, Except.mapError]

theorem exists_lints_of_mem {files : List String}
    {outcomes : List (Text × FileResult)} {outcome : Text × FileResult}
    (all : List.Forall₂ (fun filename outcome =>
      Lints workspace options engine filename outcome.1 outcome.2)
      files outcomes) (member : outcome ∈ outcomes) :
    ∃ filename ∈ files,
      Lints workspace options engine filename outcome.1 outcome.2 := by
  induction all with
  | nil => contradiction
  | cons lints _ induction =>
      rcases List.mem_cons.mp member with rfl | later
      · exact ⟨_, .head _, lints⟩
      · obtain ⟨filename, named, lints⟩ := induction later
        exact ⟨filename, .tail _ named, lints⟩

theorem exists_outcome_of_mem {files : List String}
    {outcomes : List (Text × FileResult)} {filename : String}
    (all : List.Forall₂ (fun filename outcome =>
      Lints workspace options engine filename outcome.1 outcome.2)
      files outcomes) (named : filename ∈ files) :
    ∃ outcome ∈ outcomes,
      Lints workspace options engine filename outcome.1 outcome.2 := by
  induction all with
  | nil => contradiction
  | cons lints _ induction =>
      rcases List.mem_cons.mp named with rfl | later
      · exact ⟨_, .head _, lints⟩
      · obtain ⟨outcome, member, lints⟩ := induction later
        exact ⟨outcome, .tail _ member, lints⟩

theorem lintFile_result_eq_ok {linted next : Linted} {filename : String}
    (done : (lintFile workspace options engine linted filename).result =
      .ok next) :
    ∃ content result,
      Lints workspace options engine filename content result ∧
        next = linted.add options content result := by
  unfold lintFile at done
  split at done
  · contradiction
  · rename_i content read
    obtain ⟨_, -, rest⟩ := Stage.bind_result_eq_ok_iff.mp done
    split at rest
    · contradiction
    · rename_i result outcome
      cases rest
      exact ⟨content, result, ⟨read, outcome⟩, rfl⟩

theorem lintFile_of_lints {linted : Linted} {filename : String}
    {content : Text} {result : FileResult}
    (lints : Lints workspace options engine filename content result) :
    lintFile workspace options engine linted filename =
      ⟨(engine.runFile workspace.directory filename content
          options.autocorrect).notes.map .note,
        .ok (linted.add options content result)⟩ := by
  simp only [lintFile, lints.read]
  rw [Stage.bind_of_ok (Stage.tell_result _)]
  simp only [lints.linted, Stage.tell_events, Stage.pure_events,
    Stage.pure_result, List.append_nil]

theorem lintFile_of_broken {linted : Linted} {filename : String}
    {content : Text} {error : ExecutionError}
    (read : readText workspace options filename = .ok content)
    (broken : (engine.runFile workspace.directory filename content
      options.autocorrect).outcome = .error error) :
    lintFile workspace options engine linted filename =
      ⟨(engine.runFile workspace.directory filename content
          options.autocorrect).notes.map .note,
        .error (.ended
          { stats := linted.stats
            failure := some ⟨.linterCrashed, "Error: " ++ error.message⟩ })⟩ := by
  simp only [lintFile, read]
  rw [Stage.bind_of_ok (Stage.tell_result _)]
  simp only [broken, Stage.tell_events, Stage.fail_events, Stage.fail_result,
    List.append_nil]

theorem lintFiles_singleton (linted : Linted) (filename : String) :
    lintFiles workspace options engine linted [filename] =
      lintFile workspace options engine linted filename := by
  rw [lintFiles]
  cases done : (lintFile workspace options engine linted filename).result with
  | error halt =>
      rw [Stage.bind_of_error done, ← done]
  | ok next =>
      rw [Stage.bind_of_ok done]
      exact Stage.ext (List.append_nil _) done.symm

/-- Linting that comes to its end has a result for every file. -/
theorem lintFiles_result_eq_ok_iff {linted last : Linted}
    {files : List String} :
    (lintFiles workspace options engine linted files).result = .ok last ↔
      ∃ outcomes : List (Text × FileResult),
        List.Forall₂ (fun filename outcome =>
          Lints workspace options engine filename outcome.1 outcome.2)
          files outcomes ∧
        last = collect options linted outcomes := by
  induction files generalizing linted with
  | nil =>
      constructor
      · intro done
        cases done
        exact ⟨[], .nil, rfl⟩
      · rintro ⟨outcomes, all, rfl⟩
        cases all
        rfl
  | cons filename later induction =>
      constructor
      · intro done
        obtain ⟨next, first, rest⟩ := Stage.bind_result_eq_ok_iff.mp done
        obtain ⟨content, result, lints, rfl⟩ := lintFile_result_eq_ok first
        obtain ⟨outcomes, all, rfl⟩ := induction.mp rest
        exact ⟨(content, result) :: outcomes, .cons lints all, rfl⟩
      · rintro ⟨outcomes, all, rfl⟩
        cases all with
        | cons lints rest =>
            exact Stage.bind_result_eq_ok_iff.mpr
              ⟨_, by rw [lintFile_of_lints lints],
                induction.mpr ⟨_, rest, rfl⟩⟩

end Results

/-! ## The collection -/

section Collection

variable {options : Options}

/-- What is counted does not depend on the options. -/
theorem add_stats (linted : Linted) (content : Text) (result : FileResult) :
    (linted.add options content result).stats =
      let stats := linted.stats.record result.filename result.offenses
      if result.modified then
        { stats with corrected := stats.corrected + result.corrected }
      else stats := by
  unfold Linted.add FileResult.modified
  cases result.correctedContent with
  | none =>
      dsimp only
      split <;> rfl
  | some corrected =>
      dsimp only
      split <;> rfl

theorem add_processedFiles (linted : Linted) (content : Text)
    (result : FileResult) :
    (linted.add options content result).stats.processedFiles =
      Stats.putFile result.filename result.offenses
        linted.stats.processedFiles := by
  rw [add_stats]
  dsimp only
  split <;> rfl

theorem add_pending (linted : Linted) (content : Text) (result : FileResult) :
    (linted.add options content result).pending =
      linted.pending ++
        if options.standardInput.isNone && result.modified then [result]
        else [] := by
  unfold Linted.add FileResult.modified
  dsimp only
  cases result.correctedContent with
  | none =>
      by_cases shown : options.standardInput.isSome && options.autocorrect
      · simp [shown]
      · simp [shown]
  | some corrected =>
      cases options.standardInput with
      | none => rfl
      | some path => simp

/-- With correction, the final text of the standard input is to be put out. -/
theorem add_output {engine : Engine} {workingDirectory : Path}
    {filename : String} {content : Text} {result : FileResult}
    (linted : Linted)
    (done : (engine.runFile workingDirectory filename content
      options.autocorrect).outcome = .ok result) :
    (linted.add options content result).output =
      if options.standardInput.isSome && options.autocorrect then
        some (result.finalText content)
      else linted.output := by
  cases correcting : options.autocorrect with
  | false =>
      rw [correcting] at done
      have unmodified := Engine.correctedContent_of_uncorrected done
      simp [Linted.add, unmodified, correcting]
  | true =>
      unfold Linted.add FileResult.finalText
      cases result.correctedContent with
      | none => cases options.standardInput <;> simp [correcting]
      | some corrected => cases options.standardInput <;> simp

theorem collect_cons (linted : Linted) (outcome : Text × FileResult)
    (outcomes : List (Text × FileResult)) :
    collect options linted (outcome :: outcomes) =
      collect options (linted.add options outcome.1 outcome.2) outcomes := rfl

/-- Only modified files are to be written, and none when the text came from
the standard input. -/
theorem collect_pending (linted : Linted)
    (outcomes : List (Text × FileResult)) :
    (collect options linted outcomes).pending =
      linted.pending ++ (outcomes.map (·.2)).filter fun result =>
        options.standardInput.isNone && result.modified := by
  induction outcomes generalizing linted with
  | nil => simp [collect]
  | cons outcome later induction =>
      rw [collect_cons, induction, add_pending, List.map_cons,
        List.filter_cons]
      split <;> simp

end Collection

/-! ## The end of a session -/

/-- The outcome of linting files, with its verdict. -/
def conclude (failLevel : Severity) (linted : Linted) : Outcome :=
  let verdict := Verdict.of failLevel linted.stats.offenses
  { stats := { linted.stats with
      found := verdict.found, ignored := verdict.ignored }
    verdict := some verdict }

section Endings

variable {workspace : Workspace} {options : Options}

theorem configResult_eq_ok_iff {result : Except ConfigError α} {value : α} :
    (configResult result).result = .ok value ↔ result = .ok value := by
  cases result with
  | ok other => simp [configResult, Stage.done, Stage.silent]
  | error error =>
      cases error <;>
        simp [configResult, Stage.fail, Stage.crash, Stage.silent]

/-- How a session is to be reported. -/
def reportStyle (workspace : Workspace) (options : Options) : ReportStyle :=
  ⟨options.autocorrect, options.showLinterNames, workspace.metadata⟩

/-- What a session tells before it lints. -/
def announcement (workspace : Workspace) (options : Options)
    (preparation : Preparation) (stats : Stats) : List Event :=
  unlessEmpty .err
    (preparation.format.preview? (reportStyle workspace options) stats)

/-- What a session tells of its counts at the end. -/
def report (workspace : Workspace) (options : Options)
    (preparation : Preparation) (stats : Stats) : List Event :=
  unlessEmpty (.out · true)
      (some (preparation.format.render (reportStyle workspace options) stats))
    ++ unlessEmpty .err (preparation.format.summary? stats)

/-- Linting that comes to its end is reported. -/
theorem lint_of_ok {engine : Engine} {files : List String} {linted : Linted}
    (preparation : Preparation)
    (all : (lintFiles workspace options engine
      ⟨initialStats engine files, [], none⟩ files).result = .ok linted) :
    let outcome := conclude preparation.failLevel linted
    lint workspace options engine files preparation =
      ⟨announcement workspace options preparation (initialStats engine files)
        ++ (lintFiles workspace options engine
          ⟨initialStats engine files, [], none⟩ files).events
        ++ linted.pending.map (fun result =>
          .note (.correctionsWritten result.corrected result.filename))
        ++ report workspace options preparation outcome.stats
        ++ linted.output.toList.map (.out · false),
        .ok (outcome, linted.pending)⟩ := by
  intro outcome
  rw [lint, Stage.bind_of_ok (Stage.tell_result _), Stage.bind_of_ok all,
    Stage.bind_of_ok (Stage.tell_result _),
    Stage.bind_of_ok (Stage.tell_result _)]
  simp only [Stage.tell_events, Stage.pure_events, Stage.pure_result, report,
    List.append_nil, List.append_assoc]
  rfl

/-- Linting that breaks off is not reported. -/
theorem lint_of_error {engine : Engine} {files : List String} {halt : Halt}
    (preparation : Preparation)
    (halted : (lintFiles workspace options engine
      ⟨initialStats engine files, [], none⟩ files).result = .error halt) :
    lint workspace options engine files preparation =
      ⟨announcement workspace options preparation (initialStats engine files)
        ++ (lintFiles workspace options engine
          ⟨initialStats engine files, [], none⟩ files).events,
        .error halt⟩ := by
  rw [lint, Stage.bind_of_ok (Stage.tell_result _), Stage.bind_of_error halted]
  rfl

theorem lint_result_eq_ok_iff {engine : Engine} {files : List String}
    {preparation : Preparation} {outcome : Outcome}
    {written : List FileResult} :
    (lint workspace options engine files preparation).result =
        .ok (outcome, written) ↔
      ∃ linted,
        (lintFiles workspace options engine ⟨initialStats engine files, [],
          none⟩ files).result = .ok linted ∧
        outcome = conclude preparation.failLevel linted ∧
        written = linted.pending := by
  constructor
  · intro done
    obtain ⟨_, -, afterPreview⟩ := Stage.bind_result_eq_ok_iff.mp done
    obtain ⟨linted, all, rest⟩ := Stage.bind_result_eq_ok_iff.mp afterPreview
    cases rest
    exact ⟨linted, all, rfl, rfl⟩
  · rintro ⟨linted, all, rfl, rfl⟩
    apply Stage.bind_result_eq_ok_iff.mpr
    refine ⟨(), rfl, ?_⟩
    exact Stage.bind_result_eq_ok_iff.mpr ⟨linted, all, rfl⟩

/-- A plan without files ends without a verdict. -/
theorem finish_result_of_no_files {plan : Plan} {outcome : Outcome}
    {written : List FileResult} (noFiles : plan.files = []) :
    (finish workspace options plan).result = .ok (outcome, written) ↔
      options.allowNoFiles = true ∧ outcome = {} ∧ written = [] := by
  simp only [finish, noFiles, List.isEmpty_nil, if_true]
  by_cases allowed : options.allowNoFiles
  · rw [if_pos allowed, Stage.bind_result_eq_ok_iff]
    simp [allowed, eq_comm]
  · simp [allowed]

/-- A plan with files ends with the results for all of them. -/
theorem finish_result_of_files {plan : Plan} {outcome : Outcome}
    {written : List FileResult} (someFiles : plan.files ≠ []) :
    (finish workspace options plan).result = .ok (outcome, written) ↔
      ∃ engine outcomes,
        plan.engine workspace = .ok engine ∧
        List.Forall₂ (fun filename outcome =>
          Lints workspace options engine filename outcome.1 outcome.2)
          plan.files outcomes ∧
        outcome = conclude plan.preparation.failLevel
          (collect options ⟨initialStats engine plan.files, [], none⟩
            outcomes) ∧
        written = (outcomes.map (·.2)).filter fun result =>
          options.standardInput.isNone && result.modified := by
  have nonempty : ¬plan.files.isEmpty = true := by simpa using someFiles
  rw [finish, if_neg nonempty, Stage.bind_result_eq_ok_iff]
  constructor
  · rintro ⟨engine, built, linting⟩
    obtain ⟨linted, all, rfl, rfl⟩ := lint_result_eq_ok_iff.mp linting
    obtain ⟨outcomes, results, rfl⟩ := lintFiles_result_eq_ok_iff.mp all
    exact ⟨engine, outcomes, configResult_eq_ok_iff.mp built, results, rfl,
      by simp [collect_pending]⟩
  · rintro ⟨engine, outcomes, built, results, rfl, rfl⟩
    refine ⟨engine, configResult_eq_ok_iff.mpr built, ?_⟩
    apply lint_result_eq_ok_iff.mpr
    exact ⟨_, lintFiles_result_eq_ok_iff.mpr ⟨outcomes, results, rfl⟩, rfl,
      by simp [collect_pending]⟩

/-- A session that reaches its end has no failure. -/
theorem failure_eq_none_of_finish {plan : Plan} {outcome : Outcome}
    {written : List FileResult}
    (done : (finish workspace options plan).result = .ok (outcome, written)) :
    outcome.failure = none := by
  by_cases noFiles : plan.files = []
  · obtain ⟨-, rfl, -⟩ := (finish_result_of_no_files noFiles).mp done
    rfl
  · obtain ⟨_, _, -, -, rfl, -⟩ := (finish_result_of_files noFiles).mp done
    rfl

end Endings

end Session

end TemplateLint
