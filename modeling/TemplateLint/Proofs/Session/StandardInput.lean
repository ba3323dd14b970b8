import TemplateLint.Proofs.Discovery
import TemplateLint.Proofs.Path
import TemplateLint.Proofs.Session.Writing

/-!
# Linting the standard input

A session that lints the standard input under the name of a file ends like one
that lints the file, if the input is what the file holds.  With correction, it
also puts out the text that the other session leaves in the file.
-/

namespace TemplateLint

/-! ## What can be seen of a session -/

/-- The text that an event writes to the output stream. -/
def Event.output : Event → Text
  | .out text newline => if newline then text ++ ['\n'] else text
  | .err _ | .note _ => []

/-- Whether an event is anything but output or the note that a file has been
written. -/
def Event.isDiagnostic : Event → Bool
  | .out _ _ | .note (.correctionsWritten _ _) => false
  | .err _ | .note _ => true

namespace Session.Result

def output (result : Result) : Text := result.events.flatMap Event.output

def diagnostics (result : Result) : List Event :=
  result.events.filter Event.isDiagnostic

/-- A session comes to its end with a result for some file. -/
def LintsSome (result : Result) : Prop :=
  ∃ outcome, result.ending = .ok outcome ∧ outcome.failure = none ∧
    outcome.stats.processedFiles ≠ []

end Session.Result

/-- Options that ask for the standard input under the name of a file. -/
def Options.onInput (options : Options) (file : Path) : Options :=
  { options with standardInput := some file }

/-- Options that ask for a file and nothing else. -/
def Options.onFile (options : Options) (file : Path) : Options :=
  { options with files := [file], everything := false, standardInput := none }

/-- A regular file holds a text. -/
structure FileTree.Holds (tree : FileTree) (components : List String)
    (text : Text) : Prop where
  regular : tree.isDirectory components = false
  decoded : ∃ bytes, tree.bytes? components = some bytes ∧
    Utf8.decode bytes = .ok text

/-- The written form of a path is found as the file it leads to. -/
theorem Search.discover_file {tree : FileTree} {glob : Option Text}
    {directory file : Path} {text : Text}
    (absolute : directory.isAbsolute = true) (wellFormed : file.WellFormed)
    (holds : tree.Holds (directory.under file).components text) :
    (Search.mk directory directory glob false).discover tree [file.toString] =
      .ok [(Path.normalised directory file).toString] := by
  have once : directory.under (directory.under file) = directory.under file :=
    Path.under_of_isAbsolute (Path.isAbsolute_under absolute)
  have isFile : tree.isFile (directory.under file).components = true := by
    obtain ⟨bytes, held, -⟩ := holds.decoded
    simp [FileTree.isFile, held]
  have found : (Search.mk directory directory glob false).filesOf tree
      file.toString = .ok [(Path.normalised directory file).toString] := by
    simp only [filesOf, components, absoluteName, Path.normalised,
      Path.ofString_toString wellFormed, once, holds.regular, isFile]
    rfl
  simp only [discover, filesOfBase, List.mapM_cons, List.mapM_nil, found]
  rfl

namespace Session

/-- The absolute name of a file. -/
def nameOf (workspace : Workspace) (file : Path) : String :=
  (Path.normalised workspace.directory file).toString

/-- The standard input is the text that a regular file holds.  The directory
and the path of the file are as they are read. -/
structure InputOf (workspace : Workspace) (file : Path) (text : Text) :
    Prop where
  absolute : workspace.directory.isAbsolute = true
  wellFormedDirectory : workspace.directory.WellFormed
  wellFormed : file.WellFormed
  holds : workspace.tree.Holds (workspace.directory.under file).components text
  given : workspace.standardInput = .ok text

section Parts

variable {workspace : Workspace} {options : Options} {file : Path}
  {text : Text}

/-! ## Equal plans -/

theorem discover_onInput (input : InputOf workspace file text)
    (config : RunnerConfig) :
    discover workspace (options.onInput file) config =
      discover workspace (options.onFile file) config := by
  have found := fun glob => @Search.discover_file _ glob _ _ _ input.absolute
    input.wellFormed input.holds
  simp only [discover, findFiles, Options.onInput, Options.onFile,
    input.holds.regular, List.map_cons, List.map_nil, found]
  rfl

theorem plan_onInput (input : InputOf workspace file text) :
    plan workspace (options.onInput file) =
      plan workspace (options.onFile file) := by
  simp only [plan, discover_onInput input]
  rfl

theorem excludeFiles_sublist {config : RunnerConfig} {files kept : List String}
    (done : (excludeFiles workspace config files).result = .ok kept) :
    kept.Sublist files := by
  obtain ⟨patterns, -, rest⟩ := Stage.bind_result_eq_ok_iff.mp done
  dsimp only at rest
  split at rest
  · contradiction
  · cases rest
    exact List.filter_sublist

/-- The plan has the one file, unless it is excluded. -/
theorem files_of_plan (input : InputOf workspace file text) {plan : Plan}
    (planned : (Session.plan workspace (options.onFile file)).result =
      .ok plan) :
    plan.files = [] ∨ plan.files = [nameOf workspace file] := by
  obtain ⟨-, -, discovered⟩ := plan_result_eq_ok_iff.mp planned
  have found := @Search.discover_file _ (globOf plan.preparation.config) _ _ _
    input.absolute input.wellFormed input.holds
  simp only [discover, findFiles, Options.onFile, List.map_cons, List.map_nil,
    found] at discovered
  obtain ⟨named, isNamed, kept⟩ := Stage.bind_result_eq_ok_iff.mp discovered
  cases isNamed
  exact List.sublist_singleton.mp (excludeFiles_sublist kept)

/-! ## Equal texts -/

theorem readText_onInput (input : InputOf workspace file text)
    (filename : String) :
    readText workspace (options.onInput file) filename = .ok text := by
  simp [readText, Options.onInput, input.given, Except.mapError]

/-- The absolute name of the file leads to where the file is. -/
theorem InputOf.exists_place (input : InputOf workspace file text) :
    ∃ place bytes,
      workspace.tree.locate? (workspace.directory.under file).components =
        some place ∧
      workspace.tree.placeOf? (nameOf workspace file) = some place ∧
      workspace.tree.bytesAt? place = some bytes ∧
      Utf8.decode bytes = .ok text := by
  obtain ⟨bytes, held, decoded⟩ := input.holds.decoded
  obtain ⟨place, leads, there⟩ := Option.bind_eq_some_iff.mp held
  have named : (Path.normalised workspace.directory file).WellFormed :=
    (input.wellFormedDirectory.under input.wellFormed).resolveDots
  refine ⟨place, bytes, leads, ?_, there, decoded⟩
  rw [FileTree.placeOf?, nameOf, Path.ofString_toString named]
  exact FileTree.locate?_resolveDots leads

theorem readText_onFile (input : InputOf workspace file text) :
    readText workspace (options.onFile file) (nameOf workspace file) =
      .ok text := by
  obtain ⟨place, bytes, -, leads, there, decoded⟩ := input.exists_place
  exact readText_of_bytes rfl leads there decoded

end Parts

/-! ## Sessions on one file -/

section OneFile

variable {workspace : Workspace} {options : Options} {engine : Engine}
  {filename : String} {content : Text} {result : FileResult} {plan : Plan}

theorem finish_of_engine (alone : plan.files = [filename])
    (built : plan.engine workspace = .ok engine) :
    finish workspace options plan =
      lint workspace options engine [filename] plan.preparation := by
  rw [finish, alone, built]
  rfl

theorem finish_of_no_engine {error : ConfigError}
    (alone : plan.files = [filename])
    (failed : plan.engine workspace = .error error) :
    ∃ halt, ∀ options,
      finish workspace options plan = ⟨[], .error halt⟩ := by
  have halts : ∃ halt,
      configResult (.error error : Except ConfigError Engine) =
        ⟨[], .error halt⟩ := by
    cases error <;> exact ⟨_, rfl⟩
  obtain ⟨halt, halted⟩ := halts
  refine ⟨halt, ?_⟩
  intro options
  rw [finish, alone, failed, halted]
  rfl

theorem finish_of_broken {error : ExecutionError}
    (alone : plan.files = [filename])
    (built : plan.engine workspace = .ok engine)
    (read : readText workspace options filename = .ok content)
    (broken : (engine.runFile workspace.directory filename content
      options.autocorrect).outcome = .error error) :
    finish workspace options plan =
      ⟨announcement workspace options plan.preparation
          (initialStats engine [filename])
        ++ (engine.runFile workspace.directory filename content
          options.autocorrect).notes.map .note,
        .error (.ended
          { stats := initialStats engine [filename]
            failure := some ⟨.linterCrashed, "Error: " ++ error.message⟩ })⟩ := by
  have all := (lintFiles_singleton ⟨initialStats engine [filename], [], none⟩
    filename).trans (lintFile_of_broken read broken)
  have linting := lint_of_error plan.preparation (by rw [all])
  rwa [← finish_of_engine alone built, all] at linting

theorem not_lintsSome_of_stages
    (nothing : ∀ outcome written,
      (stages workspace options).result = .ok (outcome, written) →
      outcome.stats.processedFiles = []) :
    ¬(run workspace options).LintsSome := by
  intro ⟨outcome, ending, noFailure, processed⟩
  obtain ⟨plan, written, planned, done, -⟩ :=
    exists_finish_of_run ending noFailure
  apply processed
  apply nothing outcome written
  rw [stages_eq_plan]
  exact Stage.bind_result_eq_ok_iff.mpr ⟨plan, planned, done⟩

/-- A session lints one file with a result. -/
structure LintsAlone (workspace : Workspace) (options : Options) (plan : Plan)
    (engine : Engine) (filename : String) (content : Text)
    (result : FileResult) : Prop where
  planned : (Session.plan workspace options).result = .ok plan
  alone : plan.files = [filename]
  built : plan.engine workspace = .ok engine
  lints : Lints workspace options engine filename content result

/-- The collection after a single file. -/
def lintedAlone (options : Options) (engine : Engine) (content : Text)
    (result : FileResult) : Linted :=
  Linted.add ⟨initialStats engine [result.filename], [], none⟩ options content
    result

/-- The outcome after a single file. -/
def outcomeAlone (options : Options) (plan : Plan) (engine : Engine)
    (content : Text) (result : FileResult) : Outcome :=
  conclude plan.preparation.failLevel
    (lintedAlone options engine content result)

/-- The notes on the files that are written. -/
def writingNotes (results : List FileResult) : List Event :=
  results.map fun result =>
    .note (.correctionsWritten result.corrected result.filename)

/-- What happens in a session on one file before anything is written. -/
def eventsBefore (workspace : Workspace) (options : Options) (plan : Plan)
    (engine : Engine) (filename : String) (content : Text) : List Event :=
  (Session.plan workspace options).events
    ++ (announcement workspace options plan.preparation
        (initialStats engine [filename])
      ++ (engine.runFile workspace.directory filename content
        options.autocorrect).notes.map .note)

namespace LintsAlone

theorem run_eq
    (alone : LintsAlone workspace options plan engine filename content result) :
    run workspace options =
      { events := eventsBefore workspace options plan engine filename content
          ++ writingNotes (lintedAlone options engine content result).pending
          ++ report workspace options plan.preparation
            (outcomeAlone options plan engine content result).stats
          ++ (lintedAlone options engine content result).output.toList.map
            (.out · false)
        tree := writeAll workspace.tree
          (lintedAlone options engine content result).pending
        ending := .ok (outcomeAlone options plan engine content result) } := by
  obtain ⟨planned, only, built, lints⟩ := alone
  have same := Engine.filename_of_runFile lints.linted
  subst same
  have all : lintFiles workspace options engine
      ⟨initialStats engine [result.filename], [], none⟩ [result.filename] =
      ⟨_, .ok (lintedAlone options engine content result)⟩ :=
    (lintFiles_singleton _ _).trans (lintFile_of_lints lints)
  have linting := lint_of_ok plan.preparation (by rw [all])
  rw [← finish_of_engine only built, all] at linting
  have finished : finish workspace options plan =
      ⟨_, .ok (outcomeAlone options plan engine content result, _)⟩ := linting
  simp only [run, stages_eq_plan, Stage.bind_of_ok planned, finished,
    eventsBefore, List.append_assoc]
  rfl

theorem lintsSome
    (alone : LintsAlone workspace options plan engine filename content result) :
    (run workspace options).LintsSome := by
  have ending := congrArg Result.ending alone.run_eq
  refine ⟨_, ending, rfl, ?_⟩
  have processed : (lintedAlone options engine content
      result).stats.processedFiles = [(result.filename, result.offenses)] :=
    add_processedFiles ..
  simp [outcomeAlone, conclude, processed]

theorem diagnostics_eq
    (alone : LintsAlone workspace options plan engine filename content result) :
    (run workspace options).diagnostics =
      (eventsBefore workspace options plan engine filename content
        ++ report workspace options plan.preparation
          (outcomeAlone options plan engine content result).stats).filter
        Event.isDiagnostic := by
  have written : ∀ results, (writingNotes results).filter Event.isDiagnostic =
      [] := by
    simp [writingNotes, Event.isDiagnostic]
  have putOut : ∀ texts : List Text,
      (texts.map (Event.out · false)).filter Event.isDiagnostic = [] := by
    simp [Event.isDiagnostic]
  rw [alone.run_eq]
  simp only [Result.diagnostics, List.filter_append, written, putOut,
    List.append_nil]

theorem output_eq
    (alone : LintsAlone workspace options plan engine filename content result) :
    (run workspace options).output =
      (eventsBefore workspace options plan engine filename content
        ++ report workspace options plan.preparation
          (outcomeAlone options plan engine content result).stats).flatMap
        Event.output
      ++ (lintedAlone options engine content result).output.getD [] := by
  have written : ∀ results, (writingNotes results).flatMap Event.output =
      [] := by
    simp [writingNotes, Event.output]
  have putOut : ∀ text : Option Text,
      (text.toList.map (Event.out · false)).flatMap Event.output =
        text.getD [] := by
    intro text
    cases text <;> simp [Event.output]
  rw [alone.run_eq]
  simp only [Result.output, List.flatMap_append, written, putOut,
    List.append_nil]

end LintsAlone

end OneFile

/-! ## Agreement -/

section Agreement

variable {workspace : Workspace} {options : Options} {file : Path}
  {text : Text}

/-- After a plan without a linted file, both sessions go on in the same way. -/
theorem finish_onInput (input : InputOf workspace file text) {plan : Plan}
    (files : plan.files = [] ∨ plan.files = [nameOf workspace file])
    (unlinted : ∀ engine result, plan.files = [nameOf workspace file] →
      plan.engine workspace = .ok engine →
      (engine.runFile workspace.directory (nameOf workspace file) text
        options.autocorrect).outcome ≠ .ok result) :
    finish workspace (options.onInput file) plan =
        finish workspace (options.onFile file) plan ∧
      ∀ outcome written,
        (finish workspace (options.onFile file) plan).result =
          .ok (outcome, written) →
        outcome.stats.processedFiles = [] := by
  rcases files with none | alone
  · constructor
    · simp only [finish, none]
      rfl
    · intro outcome written done
      obtain ⟨-, rfl, -⟩ := (finish_result_of_no_files none).mp done
      rfl
  · cases built : plan.engine workspace with
    | error error =>
        obtain ⟨halt, halts⟩ := finish_of_no_engine alone built
        rw [halts, halts]
        exact ⟨rfl, by simp⟩
    | ok engine =>
        cases linted : (engine.runFile workspace.directory
            (nameOf workspace file) text options.autocorrect).outcome with
        | ok result => exact absurd linted (unlinted engine result alone built)
        | error error =>
            have viaInput := @finish_of_broken _ (options.onInput file) _ _ _ _
              _ alone built (readText_onInput input _) linted
            have viaFile := @finish_of_broken _ (options.onFile file) _ _ _ _
              _ alone built (readText_onFile input) linted
            rw [viaInput, viaFile]
            exact ⟨rfl, by simp⟩

/-- Either the two sessions are the same and lint nothing, or they lint the
one file with the same result. -/
theorem run_onInput_eq_or_lintsAlone (input : InputOf workspace file text) :
    (run workspace (options.onInput file) =
        run workspace (options.onFile file) ∧
      ¬(run workspace (options.onFile file)).LintsSome) ∨
    ∃ plan engine result,
      LintsAlone workspace (options.onInput file) plan engine
        (nameOf workspace file) text result ∧
      LintsAlone workspace (options.onFile file) plan engine
        (nameOf workspace file) text result := by
  rw [or_iff_not_imp_right]
  intro unlinted
  have samePlan := @plan_onInput _ options _ _ input
  have finishes : ∀ plan,
      (Session.plan workspace (options.onFile file)).result = .ok plan →
      finish workspace (options.onInput file) plan =
          finish workspace (options.onFile file) plan ∧
        ∀ outcome written,
          (finish workspace (options.onFile file) plan).result =
            .ok (outcome, written) →
          outcome.stats.processedFiles = [] := by
    intro plan planned
    apply finish_onInput input (files_of_plan input planned)
    intro engine result alone built linted
    have plannedInput := planned
    rw [← samePlan] at plannedInput
    exact unlinted ⟨plan, engine, result,
      ⟨plannedInput, alone, built, readText_onInput input _, linted⟩,
      ⟨planned, alone, built, readText_onFile input, linted⟩⟩
  -- no plan leads to a result, so both go on alike after the same plan
  constructor
  · have same : stages workspace (options.onInput file) =
        stages workspace (options.onFile file) := by
      rw [stages_eq_plan, stages_eq_plan, samePlan]
      exact Stage.bind_congr fun plan planned => (finishes plan planned).1
    rw [run, run, same]
  · apply not_lintsSome_of_stages
    intro outcome written done
    rw [stages_eq_plan] at done
    obtain ⟨plan, planned, finished⟩ := Stage.bind_result_eq_ok_iff.mp done
    exact (finishes plan planned).2 outcome written finished

/-- The file holds its final text after it has been written. -/
theorem LintsAlone.exists_bytes {plan : Plan} {engine : Engine}
    {result : FileResult} (input : InputOf workspace file text)
    (alone : LintsAlone workspace (options.onFile file) plan engine
      (nameOf workspace file) text result) :
    ∃ bytes,
      (run workspace (options.onFile file)).tree.bytes?
          (workspace.directory.under file).components = some bytes ∧
      Utf8.decode bytes = .ok (result.finalText text) := by
  obtain ⟨place, bytes, found, leads, there, decoded⟩ := input.exists_place
  have same := Engine.filename_of_runFile alone.lints.linted
  rw [← same] at leads
  rw [alone.run_eq]
  dsimp only
  rw [lintedAlone, add_pending, List.nil_append]
  cases corrected : result.correctedContent with
  | none =>
      -- nothing is written, and the bytes need not be those of the encoding
      refine ⟨bytes, ?_, ?_⟩
      · simp only [FileResult.modified, corrected]
        exact Option.bind_eq_some_iff.mpr ⟨place, found, there⟩
      · rw [FileResult.finalText, corrected]
        exact decoded
  | some content =>
      refine ⟨Utf8.encode content, ?_, ?_⟩
      · have toWrite : ((options.onFile file).standardInput.isNone &&
            result.modified) = true := by
          simp [Options.onFile, FileResult.modified, corrected]
        rw [if_pos toWrite, writeAll_cons_of_corrected corrected leads]
        apply Option.bind_eq_some_iff.mpr
        exact ⟨place, (FileTree.locate?_write ..).trans found,
          (FileTree.bytesAt?_write ..).trans (if_pos rfl)⟩
      · rw [FileResult.finalText, corrected]
        exact Utf8.decode_encode content

end Agreement

/-- A workspace with a file that is to be corrected, and the same text as its
standard input. -/
def spaced : Workspace where
  directory := .ofString "/work"
  tree := (FileTree.empty.addFile ["work", "a"]
    (Utf8.encode "a \n".toList)).addDirectory ["work", "b"]
  registry := .builtin
  metadata := ⟨"", "", "", ""⟩
  standardInput := .ok "a \n".toList

/-- Options that correct with all linters. -/
def correctAll : Options where
  autocorrect := true
  enableAllLinters := true

/-- The way to the file through another directory. -/
def aroundB : Path := .ofString "b/../a"

end Session

end TemplateLint
