import TemplateLint.Linter.Described
import TemplateLint.Proofs.Session.Writing

/-!
# Verdicts of sessions

The verdict counts the offenses that a session reports, and every report shows
their number.  The fail level decides only about the verdict: a session with a
higher one lints the same files with the same results, finds no more offenses
and succeeds whenever the other one does.
-/

namespace TemplateLint

/-! ## Verdicts -/

namespace Verdict

variable {offenses : List Offense}

theorem of_eq (failLevel : Severity) (offenses : List Offense) :
    Verdict.of failLevel offenses =
      ⟨offenses.countP (·.counts failLevel),
        offenses.countP fun offense => !offense.counts failLevel⟩ := by
  simp only [Verdict.of, divide, List.partition_eq_filter_filter,
    List.countP_eq_length_filter]
  rfl

/-- Every offense is found or ignored. -/
theorem found_add_ignored (failLevel : Severity) (offenses : List Offense) :
    (Verdict.of failLevel offenses).found + (Verdict.of failLevel offenses).ignored =
      offenses.length := by
  rw [of_eq, List.length_eq_countP_add_countP (·.counts failLevel)]
  simp

theorem success_iff {failLevel : Severity} :
    (Verdict.of failLevel offenses).success = true ↔
      ∀ offense ∈ offenses, ¬failLevel ≤ offense.effectiveSeverity := by
  simp [of_eq, success, List.countP_eq_zero, Offense.counts]

/-- A higher fail level counts no more offenses. -/
theorem found_antitone {low high : Severity} (ordered : low ≤ high) :
    (Verdict.of high offenses).found ≤ (Verdict.of low offenses).found := by
  rw [of_eq, of_eq]
  apply List.countP_mono_left
  intro offense _ counted
  simp only [Offense.counts, decide_eq_true_eq] at counted ⊢
  exact Nat.le_trans ordered counted

theorem success_monotone {low high : Severity} (ordered : low ≤ high)
    (successful : (Verdict.of low offenses).success = true) :
    (Verdict.of high offenses).success = true := by
  rw [success_iff] at successful ⊢
  exact fun offense member counted =>
    successful offense member (Nat.le_trans ordered counted)

end Verdict

/-! ## Reports -/

/-- The value of an attribute. -/
def Xml.attribute? (name : Text) : Xml → Option Text
  | leaf _ attributes _ | node _ attributes _ =>
      (attributes.find? fun pair => pair.1 = name).map (·.2)

/-- A document begins with its declaration. -/
theorem Xml.document_ne_nil (root : Xml) : root.document ≠ [] :=
  List.append_ne_nil_of_left_ne_nil (by decide +kernel) _

namespace Report

/-- The summary of the JSON report has the number of offenses. -/
theorem summary_jsonValue (metadata : Metadata) (stats : Stats) :
    ((jsonValue metadata stats).field? "summary").bind (·.field? "offenses") =
      some (.integer stats.totalOffenses) :=
  rfl

/-- The suite of the JUnit report has the number of offenses. -/
theorem failures_suiteXml (metadata : Metadata) (stats : Stats) :
    (suiteXml metadata stats).attribute? "failures" =
      some (Text.ofNat stats.totalOffenses) :=
  rfl

end Report

/-- The same options with another fail level. -/
def Options.atLevel (options : Options) (failLevel : Option String) : Options :=
  { options with failLevel }

theorem Stage.pure_bind {α β : Type} (value : α) (next : α → Stage β) :
    (pure value : Stage α) >>= next = next value := by
  rw [Stage.bind_of_ok (Stage.pure_result value)]
  rfl

namespace Session

variable {workspace : Workspace} {options : Options}

/-- An outcome whose counts are those of the reported offenses, which the
reports for machines show, too. -/
structure Tallied (workspace : Workspace) (options : Options)
    (failLevel : Severity) (outcome : Outcome) : Prop where
  counted : outcome.stats.found + outcome.stats.ignored =
    outcome.stats.totalOffenses
  json : options.format = ReportFormat.json.name →
    ∃ value : Json, .out value.indented true ∈ (run workspace options).events ∧
      (value.field? "summary").bind (·.field? "offenses") =
        some (.integer outcome.stats.totalOffenses)
  junit : options.format = ReportFormat.junit.name →
    ∃ suite : Xml, .out suite.document true ∈ (run workspace options).events ∧
      suite.attribute? "failures" = some (Text.ofNat outcome.stats.totalOffenses)
  success : outcome.success = true ↔
    ∀ offense ∈ outcome.stats.offenses, ¬failLevel ≤ offense.effectiveSeverity

theorem events_run (workspace : Workspace) (options : Options) :
    (run workspace options).events = (stages workspace options).events := by
  simp only [run]
  split <;> rfl

/-- A session with files that comes to its end concludes from what it has
linted, and reports it. -/
theorem exists_linted_of_finish {plan : Plan} {outcome : Outcome}
    {written : List FileResult}
    (planned : (Session.plan workspace options).result = .ok plan)
    (someFiles : plan.files ≠ [])
    (done : (finish workspace options plan).result = .ok (outcome, written)) :
    ∃ linted, outcome = conclude plan.preparation.failLevel linted ∧
      ∀ event ∈ report workspace options plan.preparation outcome.stats,
        event ∈ (run workspace options).events := by
  have nonempty : ¬plan.files.isEmpty = true := by simpa using someFiles
  rw [finish, if_neg nonempty, Stage.bind_result_eq_ok_iff] at done
  obtain ⟨engine, built, linting⟩ := done
  obtain ⟨linted, all, rfl, -⟩ := lint_result_eq_ok_iff.mp linting
  refine ⟨linted, rfl, ?_⟩
  intro event reported
  rw [events_run, stages_eq_plan, Stage.bind_of_ok planned, finish,
    if_neg nonempty, Stage.bind_of_ok built, lint_of_ok plan.preparation all]
  simp only [List.mem_append]
  exact .inr (.inr (.inl (.inr reported)))

/-- The fail level and the format of a plan are those of the options. -/
theorem preparation_of_plan {plan : Plan}
    (planned : (Session.plan workspace options).result = .ok plan) :
    (parseFailLevel options.failLevel).result = .ok plan.preparation.failLevel ∧
      (parseFormat options.format).result = .ok plan.preparation.format := by
  obtain ⟨parsed, formatted, -⟩ :=
    prepare_result_eq_ok_iff.mp (plan_result_eq_ok_iff.mp planned).1
  exact ⟨parsed, formatted⟩

/-- A named format is the one that the name is parsed as. -/
theorem format_eq_of_parse {format parsed : ReportFormat} {name : String}
    (named : name = format.name) (done : (parseFormat name).result = .ok parsed) :
    parsed = format := by
  subst named
  have known : ReportFormat.ofName? format.name = some format := by
    cases format <;> decide
  rw [parseFormat, known] at done
  cases done
  rfl

/-- A report that is not empty is put out. -/
theorem mem_report {preparation : Preparation} {stats : Stats} {text : Text}
    (rendered : preparation.format.render (reportStyle workspace options) stats =
      text) (some_text : text ≠ []) :
    .out text true ∈ report workspace options preparation stats := by
  have shown : unlessEmpty (.out · true) (some text) = [.out text true] :=
    if_neg (by simpa using some_text)
  rw [report, rendered, shown]
  exact List.mem_append_left _ (.head _)

/-- A session that has linted files tallies its offenses. -/
theorem tallied_of_finish {plan : Plan} {outcome : Outcome}
    {written : List FileResult}
    (planned : (Session.plan workspace options).result = .ok plan)
    (someFiles : plan.files ≠ [])
    (done : (finish workspace options plan).result = .ok (outcome, written)) :
    Tallied workspace options plan.preparation.failLevel outcome := by
  have formatted := (preparation_of_plan planned).2
  obtain ⟨linted, rfl, shown⟩ := exists_linted_of_finish planned someFiles done
  refine ⟨?_, ?_, ?_, ?_⟩
  · have total := Verdict.found_add_ignored plan.preparation.failLevel
      linted.stats.offenses
    simp only [conclude, Stats.totalOffenses]
    exact_mod_cast total
  · intro named
    have rendered := format_eq_of_parse named formatted
    refine ⟨_, shown _ (mem_report ?_ ?_),
      Report.summary_jsonValue workspace.metadata _⟩
    · rw [rendered]
      rfl
    · simp [Report.jsonValue, Json.indented, Json.print]
  · intro named
    have rendered := format_eq_of_parse named formatted
    refine ⟨_, shown _ (mem_report ?_ ?_),
      Report.failures_suiteXml workspace.metadata _⟩
    · rw [rendered]
      rfl
    · exact Xml.document_ne_nil _
  · rw [Outcome.success]
    exact Verdict.success_iff

/-! ## Two fail levels -/

/-- The same plan with another fail level. -/
def Plan.atLevel (plan : Plan) (failLevel : Severity) : Plan :=
  { plan with preparation := { plan.preparation with failLevel } }

theorem parseFailLevel_eq_pure {level : Option String} {failLevel : Severity}
    (parsed : (parseFailLevel level).result = .ok failLevel) :
    parseFailLevel level = pure failLevel := by
  apply Stage.ext _ parsed
  unfold parseFailLevel
  split
  · rfl
  · split <;> rfl

section Levels

variable {lower higher : Option String} {low high : Severity}

/-- The fail level changes nothing else in a plan. -/
theorem plan_atLevel (parsedLow : (parseFailLevel lower).result = .ok low)
    (parsedHigh : (parseFailLevel higher).result = .ok high) :
    Session.plan workspace (options.atLevel higher) =
      Session.plan workspace (options.atLevel lower) >>= fun plan =>
        pure (plan.atLevel high) := by
  have found : ∀ level config, discover workspace (options.atLevel level) config =
      discover workspace options config := fun _ _ => rfl
  have enabled : ∀ level config, applyEnabling (options.atLevel level) config =
      applyEnabling options config := fun _ _ => rfl
  simp only [Session.plan, prepare, found, enabled]
  simp only [Options.atLevel, parseFailLevel_eq_pure parsedLow,
    parseFailLevel_eq_pure parsedHigh, Stage.pure_bind, Stage.bind_assoc]
  rfl

end Levels

/-- Linting does not look at the fail level of the options. -/
theorem lintFiles_atLevel (level : Option String) (engine : Engine)
    (linted : Linted) (files : List String) :
    lintFiles workspace (options.atLevel level) engine linted files =
      lintFiles workspace options engine linted files := by
  induction files generalizing linted with
  | nil => rfl
  | cons filename later induction =>
      have same : lintFile workspace (options.atLevel level) engine linted filename =
          lintFile workspace options engine linted filename := rfl
      rw [lintFiles, lintFiles, same]
      exact Stage.bind_congr fun next _ => induction next

theorem finish_options_atLevel (level : Option String) (plan : Plan) :
    finish workspace (options.atLevel level) plan = finish workspace options plan := by
  have same : ∀ engine, lint workspace (options.atLevel level) engine plan.files
      plan.preparation =
      lint workspace options engine plan.files plan.preparation := by
    intro engine
    simp only [lint, lintFiles_atLevel]
    rfl
  simp only [finish, same]
  rfl

/-- What a higher fail level makes of an outcome: the same results, of which no
more count. -/
structure Eases (strict lax : Outcome) : Prop where
  failure : lax.failure = strict.failure
  processedFiles : lax.stats.processedFiles = strict.stats.processedFiles
  found : lax.stats.found ≤ strict.stats.found
  success : strict.success = true → lax.success = true

theorem Eases.refl (outcome : Outcome) : Eases outcome outcome :=
  ⟨rfl, rfl, Int.le_refl _, id⟩

/-- The same linting is concluded at two levels. -/
theorem eases_conclude {low high : Severity} (ordered : low ≤ high)
    (linted : Linted) : Eases (conclude low linted) (conclude high linted) := by
  refine ⟨rfl, rfl, ?_, ?_⟩
  · exact Int.ofNat_le.mpr (Verdict.found_antitone ordered)
  · exact Verdict.success_monotone ordered

/-- After the same plan, a session with a higher level halts in the same way or
writes the same files and ends with an eased outcome. -/
theorem finish_atLevel {plan : Plan} {high : Severity}
    (ordered : plan.preparation.failLevel ≤ high) :
    (∀ halt, (finish workspace options plan).result = .error halt →
      (finish workspace options (plan.atLevel high)).result = .error halt) ∧
    ∀ outcome written,
      (finish workspace options plan).result = .ok (outcome, written) →
      ∃ eased, (finish workspace options (plan.atLevel high)).result =
        .ok (eased, written) ∧ Eases outcome eased := by
  have engine : (plan.atLevel high).engine workspace = plan.engine workspace := rfl
  have files : (plan.atLevel high).files = plan.files := rfl
  by_cases noFiles : plan.files.isEmpty = true
  · have same : finish workspace options (plan.atLevel high) =
        finish workspace options plan := by
      rw [finish, finish, files, if_pos noFiles, if_pos noFiles]
    rw [same]
    exact ⟨fun _ halted => halted, fun outcome _ done => ⟨outcome, done, .refl outcome⟩⟩
  · rw [finish, finish, files, if_neg noFiles, if_neg noFiles, engine]
    cases built : (configResult (plan.engine workspace)).result with
    | error halt =>
        rw [Stage.bind_of_error built, Stage.bind_of_error built]
        exact ⟨fun _ halted => halted, fun _ _ done => by contradiction⟩
    | ok engine =>
        rw [Stage.bind_of_ok built, Stage.bind_of_ok built]
        cases all : (lintFiles workspace options engine
            ⟨initialStats engine plan.files, [], none⟩ plan.files).result with
        | error halt =>
            rw [lint_of_error plan.preparation all,
              lint_of_error (plan.atLevel high).preparation all]
            exact ⟨fun _ halted => halted, fun _ _ done => by contradiction⟩
        | ok linted =>
            rw [lint_of_ok plan.preparation all,
              lint_of_ok (plan.atLevel high).preparation all]
            refine ⟨fun _ halted => by contradiction, ?_⟩
            rintro outcome written ⟨⟩
            exact ⟨_, rfl, eases_conclude ordered linted⟩

/-- Two sessions of which the second is to be no stricter: they leave the same
files, and crash alike or end with outcomes that the higher level eases. -/
def Result.Eases (strict lax : Result) : Prop :=
  lax.tree = strict.tree ∧
    ((∃ crash, strict.ending = .error crash ∧ lax.ending = .error crash) ∨
      ∃ outcome eased, strict.ending = .ok outcome ∧ lax.ending = .ok eased ∧
        Session.Eases outcome eased)

/-- A session eases another one that halts in the same way. -/
theorem Result.eases_of_halt {strict lax : Options} {halt : Halt}
    (halted : (stages workspace strict).result = .error halt)
    (haltedToo : (stages workspace lax).result = .error halt) :
    (run workspace strict).Eases (run workspace lax) := by
  cases halt with
  | crashed crash =>
      simp only [run, halted, haltedToo]
      exact ⟨rfl, .inl ⟨crash, rfl, rfl⟩⟩
  | ended outcome =>
      simp only [run, halted, haltedToo]
      exact ⟨rfl, .inr ⟨outcome, outcome, rfl, rfl, .refl outcome⟩⟩

/-- A higher fail level eases a session. -/
theorem run_eases {lower higher : Option String} {low high : Severity}
    (parsedLow : (parseFailLevel lower).result = .ok low)
    (parsedHigh : (parseFailLevel higher).result = .ok high)
    (ordered : low ≤ high) :
    (run workspace (options.atLevel lower)).Eases
      (run workspace (options.atLevel higher)) := by
  have strict := stages_eq_plan workspace (options.atLevel lower)
  have lax := stages_eq_plan workspace (options.atLevel higher)
  rw [plan_atLevel parsedLow parsedHigh, Stage.bind_assoc] at lax
  simp only [Stage.pure_bind, finish_options_atLevel] at lax
  cases planned : (Session.plan workspace (options.atLevel lower)).result with
  | error halt =>
      rw [Stage.bind_of_error planned] at strict lax
      exact Result.eases_of_halt (by rw [strict]) (by rw [lax])
  | ok plan =>
      have level := (preparation_of_plan planned).1
      rw [Options.atLevel, parsedLow] at level
      have lowest : plan.preparation.failLevel = low := (Except.ok.inj level).symm
      obtain ⟨halts, ends⟩ := @finish_atLevel workspace options plan high
        (lowest ▸ ordered)
      rw [Stage.bind_of_ok planned] at strict lax
      rw [finish_options_atLevel] at strict
      cases done : (finish workspace options plan).result with
      | error halt =>
          refine @Result.eases_of_halt _ _ _ halt ?_ ?_
          · rw [strict, done]
          · rw [lax, halts halt done]
      | ok value =>
          obtain ⟨outcome, written⟩ := value
          obtain ⟨eased, doneToo, eases⟩ := ends outcome written done
          rw [done] at strict
          rw [doneToo] at lax
          simp only [run, strict, lax]
          exact ⟨rfl, .inr ⟨outcome, eased, rfl, rfl, eases⟩⟩

/-- A session that ends without a failure and with a result for some file has
found or ignored each offense that it reports, shows their number in the
reports for machines, and succeeds exactly if none is at or above its fail
level.  A session at a higher fail level ends in the same way with the same
results, finds no more offenses and succeeds whenever the other one does. -/
theorem run_verdict (workspace : Workspace) (options : Options) :
    (∀ outcome, (run workspace options).ending = .ok outcome →
      outcome.failure = none → outcome.stats.processedFiles ≠ [] →
      ∃ failLevel, (parseFailLevel options.failLevel).result = .ok failLevel ∧
        Tallied workspace options failLevel outcome) ∧
    ∀ lower higher low high,
      (parseFailLevel lower).result = .ok low →
      (parseFailLevel higher).result = .ok high → low ≤ high →
      (run workspace (options.atLevel lower)).Eases
        (run workspace (options.atLevel higher)) := by
  constructor
  · intro outcome ending noFailure processed
    obtain ⟨plan, written, planned, done, -⟩ := exists_finish_of_run ending noFailure
    refine ⟨plan.preparation.failLevel, (preparation_of_plan planned).1, ?_⟩
    apply tallied_of_finish planned _ done
    intro noFiles
    obtain ⟨-, rfl, -⟩ := (finish_result_of_no_files noFiles).mp done
    exact processed rfl
  · intro lower higher low high parsedLow parsedHigh ordered
    exact run_eases parsedLow parsedHigh ordered

/-- A workspace whose linter reports a note and a warning. -/
def noted : Workspace where
  directory := .ofString "/work"
  tree := FileTree.empty.addFile ["work", "a"] (Utf8.encode "xy".toList)
  registry := ⟨[.described 1 "Marks" false
    [.occurrences "x".toList { message := "note".toList, severity := some .info },
      .occurrences "y".toList
        { message := "warning".toList, severity := some .warning }]]⟩
  metadata := ⟨"", "", "", ""⟩
  standardInput := .ok []

/-- Options for a report to a machine. -/
def asJson : Options where
  files := [.ofString "a"]
  enableAllLinters := true
  format := ReportFormat.json.name

/-- The warning counts at the lowest fail level and not at the highest. -/
theorem run_verdict_of_noted :
    (∃ outcome, (run noted asJson).ending = .ok outcome ∧
      outcome.failure = none ∧ outcome.stats.processedFiles ≠ [] ∧
      outcome.stats.totalOffenses = 2 ∧
      ∃ failLevel, (parseFailLevel none).result = .ok failLevel ∧
        Tallied noted asJson failLevel outcome) ∧
    (parseFailLevel (some "i")).result = .ok .info ∧
    (parseFailLevel (some "fatal")).result = .ok .fatal ∧
    Severity.info ≤ Severity.fatal ∧
    (run noted (asJson.atLevel (some "i"))).ending.toOption.map (·.success) =
      some false ∧
    (run noted (asJson.atLevel (some "fatal"))).ending.toOption.map (·.success) =
      some true ∧
    (run noted (asJson.atLevel (some "i"))).Eases
      (run noted (asJson.atLevel (some "fatal"))) := by
  obtain ⟨tallied, eases⟩ := run_verdict noted asJson
  have ends : (run noted asJson).ending.toOption.map (fun outcome =>
      (outcome.failure, outcome.stats.processedFiles.map (·.1),
        outcome.stats.totalOffenses)) = some (none, ["/work/a"], 2) := by
    decide +kernel
  refine ⟨?_, by rfl, by rfl, by decide, by decide +kernel, by decide +kernel, ?_⟩
  · cases ending : (run noted asJson).ending with
    | error crash => simp [ending, Except.toOption] at ends
    | ok outcome =>
        simp only [ending, Except.toOption, Option.map_some, Option.some.injEq,
          Prod.mk.injEq] at ends
        have processed : outcome.stats.processedFiles ≠ [] := by
          intro none
          simp [none] at ends
        exact ⟨outcome, rfl, ends.1, processed, ends.2.2,
          tallied outcome ending ends.1 processed⟩
  · exact eases (some "i") (some "fatal") .info .fatal rfl rfl (by decide)

end Session

end TemplateLint
