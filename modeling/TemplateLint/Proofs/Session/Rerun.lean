import TemplateLint.Proofs.Discovery
import TemplateLint.Proofs.Session.Writing

/-!
# Reports tell what is on disk

The offenses that a correcting session reports are those that a later session
without correction finds in the written files.  The later session has the same
plan, since a plan depends on the shape of the file tree and on the bytes of
the configuration file, and each text it reads is the final one of the first
session.
-/

namespace TemplateLint

/-! ## Final texts -/

namespace Engine

variable {engine : Engine} {workingDirectory : Path} {filename : String}

/-- However the passes end, the last run is on the text they reach. -/
theorem correctingPasses_last (limit : Nat) (progress : Progress) :
    (engine.correctingPasses workingDirectory filename limit progress).last =
      engine.runOn workingDirectory filename
        (engine.correctingPasses workingDirectory filename limit
          progress).progress.content := by
  induction limit generalizing progress with
  | zero => rfl
  | succ limit induction =>
      simp only [correctingPasses]
      split
      · rfl
      · split
        · rfl
        · exact induction _

/-- Linting a final text reports the offenses that correcting it reported. -/
theorem runFile_finalText {content : Text} {autocorrect : Bool}
    {result : FileResult}
    (done : (engine.runFile workingDirectory filename content
      autocorrect).outcome = .ok result) :
    (engine.runFile workingDirectory filename (result.finalText content)
        false).outcome =
      .ok ⟨filename, result.offenses, none, 0, []⟩ := by
  have reached := FileResult.finalText_eq done
  obtain ⟨progress, last, passed, quiet, rfl⟩ := eq_of_runFile done
  have onFinal : last = engine.runOn workingDirectory filename
      progress.content := by
    have ended := @correctingPasses_last engine workingDirectory filename
      (if autocorrect then passLimit else 0) ⟨content, 0, [], []⟩
    rw [passes] at passed
    rw [passed] at ended
    exact ended
  rw [passed] at reached
  rw [reached]
  subst onFinal
  exact runFile_without_correction quiet

end Engine

/-- The result for a file that is linted again, once it has its final text. -/
def FileResult.settled (result : FileResult) : FileResult :=
  ⟨result.filename, result.offenses, none, 0, []⟩

/-- Counts without the corrections. -/
def Stats.uncorrected (stats : Stats) : Stats := { stats with corrected := 0 }

/-- An outcome without the corrections. -/
def Outcome.uncorrected (outcome : Outcome) : Outcome :=
  { outcome with stats := outcome.stats.uncorrected }

namespace Session

/-! ## Plans on written trees -/

section Plans

variable {workspace : Workspace} {options : Options} {tree : FileTree}

/-- The file from which a session reads its configuration. -/
def configComponents (workspace : Workspace) (options : Options) :
    List String :=
  (workspace.directory.under
    (options.config.getD (.ofString defaultConfigFile))).components

theorem loadConfig_congr
    (sameConfig : tree.bytes? (configComponents workspace options) =
      workspace.tree.bytes? (configComponents workspace options)) :
    loadConfig { workspace with tree } options.config =
      loadConfig workspace options.config := by
  simp only [configComponents] at sameConfig
  simp only [loadConfig, sameConfig]
  rfl

theorem discover_congr (shape : FileTree.SameShape tree workspace.tree)
    (config : RunnerConfig) :
    discover { workspace with tree } options config =
      discover workspace options config := by
  simp only [discover, findFiles, shape.isDirectory, shape.discover]
  rfl

/-- A plan depends on the shape of the tree and on the configuration. -/
theorem plan_congr (shape : FileTree.SameShape tree workspace.tree)
    (sameConfig : tree.bytes? (configComponents workspace options) =
      workspace.tree.bytes? (configComponents workspace options))
    (autocorrect : Bool) :
    plan { workspace with tree } { options with autocorrect } =
      plan workspace options := by
  have prepared : prepare { workspace with tree } { options with autocorrect } =
      prepare workspace options := by
    simp only [prepare, loadConfig_congr sameConfig]
    rfl
  have found : ∀ config,
      discover { workspace with tree } { options with autocorrect } config =
        discover workspace options config :=
    fun config => discover_congr shape config
  simp only [plan, prepared, found]

end Plans

/-! ## Written files -/

section Written

variable {workspace : Workspace} {options : Options} {plan : Plan}
  {outcome : Outcome} {written : List FileResult}

/-- Only files that exist are written. -/
theorem sameShape_of_finish (fromFiles : options.standardInput = none)
    (done : (finish workspace options plan).result = .ok (outcome, written)) :
    FileTree.SameShape (writeAll workspace.tree written) workspace.tree := by
  apply sameShape_writeAll
  intro result member _
  obtain ⟨engine, content, -, -, lints, -⟩ :=
    (mem_written_iff fromFiles done).mp member
  obtain ⟨place, bytes, leads, held, -⟩ := lints.exists_bytes fromFiles
  exact ⟨place, leads, by simp [held]⟩

/-- What is read from a written file is its final text. -/
theorem readText_of_finish {engine : Engine} {filename : String}
    {content : Text} {result : FileResult}
    (fromFiles : options.standardInput = none)
    (once : NamedOnce workspace.tree plan.files)
    (done : (finish workspace options plan).result = .ok (outcome, written))
    (built : plan.engine workspace = .ok engine)
    (named : filename ∈ plan.files)
    (lints : Lints workspace options engine filename content result) :
    readText { workspace with tree := writeAll workspace.tree written } options
        filename =
      .ok (result.finalText content) := by
  obtain ⟨place, bytes, leads, held, decoded⟩ := lints.exists_bytes fromFiles
  have ends : plan.ending? workspace options filename =
      some (content, result.finalText content) :=
    Plan.ending?_eq_some_iff.mpr ⟨engine, result, built, lints, rfl⟩
  have leadsStill : (writeAll workspace.tree written).placeOf? filename =
      some place := by
    rw [(sameShape_of_finish fromFiles done).placeOf?, leads]
  by_cases same : result.finalText content = content
  · have kept : (writeAll workspace.tree written).bytesAt? place =
        workspace.tree.bytesAt? place := by
      apply bytesAt?_of_unchanged fromFiles done
      intro other namedToo otherContent otherFinal leadsToo endsToo
      have sameName := once other namedToo filename named place leadsToo leads
      subst sameName
      rw [ends] at endsToo
      cases endsToo
      exact same
    rw [held] at kept
    rw [same]
    exact readText_of_bytes fromFiles leadsStill kept decoded
  · have replaced :=
      bytesAt?_of_changed fromFiles once done named leads ends same
    exact readText_of_bytes fromFiles leadsStill replaced
      (Utf8.decode_encode _)

/-- A file is linted again with a settled result. -/
theorem Lints.again {tree : FileTree} {engine : Engine} {filename : String}
    {content : Text} {result : FileResult}
    (lints : Lints workspace options engine filename content result)
    (reread : readText { workspace with tree } options filename =
      .ok (result.finalText content)) :
    Lints { workspace with tree } { options with autocorrect := false } engine
      filename (result.finalText content) result.settled := by
  constructor
  · exact reread
  · have settled := Engine.runFile_finalText lints.linted
    rw [FileResult.settled, Engine.filename_of_runFile lints.linted]
    exact settled

end Written

/-! ## Two sessions -/

/-- What settled results add to a collection. -/
theorem collect_settled {options : Options}
    (fromFiles : options.standardInput = none) (linted : Linted)
    (outcomes : List (Text × FileResult)) :
    collect { options with autocorrect := false }
        ⟨linted.stats.uncorrected, [], none⟩
        (outcomes.map fun outcome =>
          (outcome.2.finalText outcome.1, outcome.2.settled)) =
      ⟨(collect options linted outcomes).stats.uncorrected, [], none⟩ := by
  induction outcomes generalizing linted with
  | nil => rfl
  | cons outcome later induction =>
      have first : Linted.add ⟨linted.stats.uncorrected, [], none⟩
          { options with autocorrect := false }
          (outcome.2.finalText outcome.1) outcome.2.settled =
          ⟨(linted.add options outcome.1 outcome.2).stats.uncorrected, [],
            none⟩ := by
        simp only [Linted.add, FileResult.settled, fromFiles,
          Option.isSome_none]
        cases outcome.2.correctedContent <;> rfl
      rw [List.map_cons, collect_cons, collect_cons, first]
      exact induction _

/-- Results for files carry over to others that are made from them. -/
theorem forall₂_map_of_mem {α β γ : Type} {first : α → β → Prop}
    {second : α → γ → Prop} {next : β → γ} {names : List α} {values : List β}
    (all : List.Forall₂ first names values)
    (step : ∀ name ∈ names, ∀ value, first name value →
      second name (next value)) :
    List.Forall₂ second names (values.map next) := by
  induction all with
  | nil => exact .nil
  | cons here _ induction =>
      apply List.Forall₂.cons (step _ (.head _) _ here)
      exact induction fun name member => step name (.tail _ member)

/-- Linting the written files again ends as before, without corrections. -/
theorem finish_again {workspace : Workspace} {options : Options} {plan : Plan}
    {outcome : Outcome} {written : List FileResult}
    (fromFiles : options.standardInput = none)
    (once : NamedOnce workspace.tree plan.files)
    (done : (finish workspace options plan).result = .ok (outcome, written)) :
    ∃ writtenAgain,
      (finish { workspace with tree := writeAll workspace.tree written }
          { options with autocorrect := false } plan).result =
        .ok (outcome.uncorrected, writtenAgain) := by
  by_cases noFiles : plan.files = []
  · obtain ⟨allowed, rfl, -⟩ := (finish_result_of_no_files noFiles).mp done
    exact ⟨[], (finish_result_of_no_files noFiles).mpr ⟨allowed, rfl, rfl⟩⟩
  · obtain ⟨engine, outcomes, built, all, rfl, -⟩ :=
      (finish_result_of_files noFiles).mp done
    refine ⟨_, (finish_result_of_files noFiles).mpr
      ⟨engine, outcomes.map fun outcome =>
        (outcome.2.finalText outcome.1, outcome.2.settled), built, ?_, ?_,
        rfl⟩⟩
    · apply forall₂_map_of_mem all
      intro filename named outcome lints
      exact lints.again
        (readText_of_finish fromFiles once done built named lints)
    · let start : Linted := ⟨initialStats engine plan.files, [], none⟩
      have collected := collect_settled fromFiles start outcomes
      have fresh : start.stats.uncorrected = initialStats engine plan.files :=
        rfl
      rw [fresh] at collected
      rw [collected]
      rfl

/-- A session without a failure whose files are named once each, and which
leaves its configuration as it was, reports what is then on disk: without
correction, a second session on the written tree makes the same plan and ends
with the same outcome, but for the number of corrections. -/
theorem rerun_reports_same {workspace : Workspace} {options : Options}
    {outcome : Outcome}
    (fromFiles : options.standardInput = none)
    (ending : (run workspace options).ending = .ok outcome)
    (noFailure : outcome.failure = none)
    (sameConfig :
      (run workspace options).tree.bytes? (configComponents workspace options) =
        workspace.tree.bytes? (configComponents workspace options))
    (once : ∀ plan, (Session.plan workspace options).result = .ok plan →
      NamedOnce workspace.tree plan.files) :
    ∃ plan, (Session.plan workspace options).result = .ok plan ∧
      (Session.plan { workspace with tree := (run workspace options).tree }
        { options with autocorrect := false }).result = .ok plan ∧
      (run { workspace with tree := (run workspace options).tree }
        { options with autocorrect := false }).ending =
          .ok outcome.uncorrected := by
  obtain ⟨plan, written, planned, done, tree⟩ :=
    exists_finish_of_run ending noFailure
  rw [tree] at sameConfig ⊢
  have shape := sameShape_of_finish fromFiles done
  have plannedAgain :
      (Session.plan { workspace with tree := writeAll workspace.tree written }
        { options with autocorrect := false }).result = .ok plan := by
    rw [plan_congr shape sameConfig]
    exact planned
  obtain ⟨writtenAgain, doneAgain⟩ :=
    finish_again fromFiles (once plan planned) done
  exact ⟨plan, planned, plannedAgain, (run_of_finish plannedAgain doneAgain).1⟩

/-- A workspace whose linter turns two texts into one another, so that the
passes over its file are used up. -/
def turning : Workspace where
  directory := .ofString "/work"
  tree := FileTree.empty.addFile ["work", "a"] (Utf8.encode "x".toList)
  registry := ⟨[
    .described 1 "Turning" true [replacing "x" "y", replacing "y" "x"]]⟩
  metadata := ⟨"", "", "", ""⟩
  standardInput := .ok []

/-- Options that name one file once. -/
def oneName : Options where
  files := [.ofString "a"]
  autocorrect := true
  enableAllLinters := true

theorem rerun_reports_same_turning :
    ∃ outcome plan, oneName.standardInput = none ∧
      (run turning oneName).ending = .ok outcome ∧
      outcome.failure = none ∧
      outcome.stats.found = 1 ∧
      (run turning oneName).tree.bytes? (configComponents turning oneName) =
        turning.tree.bytes? (configComponents turning oneName) ∧
      (Session.plan turning oneName).result = .ok plan ∧
      NamedOnce turning.tree plan.files ∧
      (Session.plan { turning with tree := (run turning oneName).tree }
        { oneName with autocorrect := false }).result = .ok plan ∧
      (run { turning with tree := (run turning oneName).tree }
        { oneName with autocorrect := false }).ending =
          .ok outcome.uncorrected := by
  have ends : (run turning oneName).ending.toOption.map
      (fun outcome => (outcome.failure, outcome.stats.found)) =
      some (none, 1) := by
    decide +kernel
  have planned : (Session.plan turning oneName).result.toOption.map (·.files) =
      some ["/work/a"] := by
    decide +kernel
  have sameConfig :
      (run turning oneName).tree.bytes? (configComponents turning oneName) =
        turning.tree.bytes? (configComponents turning oneName) := by
    decide +kernel
  have once : ∀ plan, (Session.plan turning oneName).result = .ok plan →
      NamedOnce turning.tree plan.files := by
    intro plan found first firstNamed second secondNamed
    simp only [found, Except.toOption, Option.map_some,
      Option.some.injEq] at planned
    rw [planned, List.mem_singleton] at firstNamed secondNamed
    exact fun _ _ _ => firstNamed.trans secondNamed.symm
  cases ending : (run turning oneName).ending with
  | error crash => simp [ending, Except.toOption] at ends
  | ok outcome =>
      simp only [ending, Except.toOption, Option.map_some, Option.some.injEq,
        Prod.mk.injEq] at ends
      obtain ⟨plan, found, again, report⟩ :=
        rerun_reports_same rfl ending ends.1 sameConfig once
      exact ⟨outcome, plan, rfl, rfl, ends.1, ends.2, sameConfig, found,
        once plan found, again, report⟩

/-- Under two names, the text that is written last is not the one that was
linted under the first name, and linting it again finds more. -/
theorem rerun_finds_more_under_two_names :
    ∃ first second, (run twoSlashes bothNames).ending = .ok first ∧
      first.failure = none ∧
      (run twoSlashes bothNames).tree.bytes?
          (configComponents twoSlashes bothNames) =
        twoSlashes.tree.bytes? (configComponents twoSlashes bothNames) ∧
      (run { twoSlashes with tree := (run twoSlashes bothNames).tree }
        { bothNames with autocorrect := false }).ending = .ok second ∧
      first.stats.found = 0 ∧ second.stats.found = 1 := by
  have ends : (run twoSlashes bothNames).ending.toOption.map
      (fun outcome => (outcome.failure, outcome.stats.found)) =
      some (none, 0) := by
    decide +kernel
  have endsAgain :
      (run { twoSlashes with tree := (run twoSlashes bothNames).tree }
        { bothNames with autocorrect := false }).ending.toOption.map
          (·.stats.found) = some 1 := by
    decide +kernel
  cases ending : (run twoSlashes bothNames).ending with
  | error crash => simp [ending, Except.toOption] at ends
  | ok first =>
      cases endingAgain :
          (run { twoSlashes with tree := (run twoSlashes bothNames).tree }
            { bothNames with autocorrect := false }).ending with
      | error crash => simp [endingAgain, Except.toOption] at endsAgain
      | ok second =>
          simp only [ending, Except.toOption, Option.map_some,
            Option.some.injEq, Prod.mk.injEq] at ends
          simp only [endingAgain, Except.toOption, Option.map_some,
            Option.some.injEq] at endsAgain
          exact ⟨first, second, rfl, ends.1, by decide +kernel, rfl, ends.2,
            endsAgain⟩

end Session

end TemplateLint
