import TemplateLint.Proofs.Report.Json
import TemplateLint.Proofs.Xml.Elements

/-!
# The JUnit report decodes to the run

A reader of the report looks for elements and attributes by their names.  The
report is a document as long as the texts of the run have no characters that
documents must not have, and then the reader finds the files with their offenses
and the numbers of both.
-/

namespace TemplateLint

open Xml (AreLegal Item)

/-! ## Texts of a run -/

/-- What the environment says of itself can stand in a document. -/
structure Metadata.HasLegalTexts (metadata : Metadata) : Prop where
  version : AreLegal metadata.version
  implementation : AreLegal metadata.implementation
  implementationVersion : AreLegal metadata.implementationVersion
  platform : AreLegal metadata.platform

/-- Every path, linter name and message can stand in a document. -/
def Stats.HasLegalTexts (stats : Stats) : Prop :=
  ∀ file ∈ stats.processedFiles, AreLegal file.1 ∧
    ∀ offense ∈ file.2, AreLegal offense.linterName ∧ AreLegal offense.message

namespace Report

/-! ## Decoding -/

structure ReportedFailure where
  linter : Text
  message : Text
  severity : Text
  line : Int
  column : Int
  length : Int
  deriving DecidableEq

structure ReportedCase where
  name : Text
  file : Text
  failures : List ReportedFailure
  deriving DecidableEq

/-- What a report says of the files of a run. -/
structure ReportedSuite where
  tests : Int
  failures : Int
  cases : List ReportedCase
  deriving DecidableEq

def numberAt? (key : Text) (item : Item) : Option Int :=
  (item.attribute? key).bind Text.integer?

def failure? (item : Item) : Option ReportedFailure := do
  return {
    linter := ← item.attribute? "type"
    message := ← item.attribute? "message"
    severity := ← item.attribute? "severity"
    line := ← numberAt? "line" item
    column := ← numberAt? "column" item
    length := ← numberAt? "length" item }

def case? (item : Item) : Option ReportedCase := do
  return {
    name := ← item.attribute? "name"
    file := ← item.attribute? "file"
    failures := ← (item.children "failure").mapM failure? }

def suite? (root : Item) : Option ReportedSuite :=
  if root.isNamed "testsuite" then do
    return {
      tests := ← numberAt? "tests" root
      failures := ← numberAt? "failures" root
      cases := ← (root.children "testcase").mapM case? }
  else none

/-! ## What there is to report -/

def reportedFailure (offense : Offense) : ReportedFailure where
  linter := offense.linterName
  message := offense.linterName.toList ++ ": " ++ offense.message
  severity := offense.effectiveSeverity.label
  line := offense.range.line
  column := offense.range.column
  length := offense.range.length

def reportedCase (file : String × List Offense) : ReportedCase where
  name := file.1
  file := file.1
  failures := file.2.map reportedFailure

def reportedCases (stats : Stats) : List ReportedCase :=
  stats.processedFiles.map reportedCase

/-- The numbers of the suite are those of its cases and of their failures. -/
def reportedSuite (stats : Stats) : ReportedSuite where
  tests := (reportedCases stats).length
  failures := ((reportedCases stats).flatMap (·.failures)).length
  cases := reportedCases stats

/-! ## Decoding what is reported -/

theorem failure?_failureXml (filename : Text) (depth : Nat)
    (offense : Offense) :
    failure? (Xml.item depth (failureXml filename offense).unified) =
      some (reportedFailure offense) := by
  have linter : Xml.valueOf? "type" (failureXml filename offense).attributes =
      some offense.linterName.toList := rfl
  have message :
      Xml.valueOf? "message" (failureXml filename offense).attributes =
        some (failureMessage offense) := rfl
  have severity :
      Xml.valueOf? "severity" (failureXml filename offense).attributes =
        some offense.effectiveSeverity.label.toList := rfl
  have line : Xml.valueOf? "line" (failureXml filename offense).attributes =
      some (Text.ofInt offense.range.line) := rfl
  have column :
      Xml.valueOf? "column" (failureXml filename offense).attributes =
        some (Text.ofInt offense.range.column) := rfl
  have length :
      Xml.valueOf? "length" (failureXml filename offense).attributes =
        some (Text.ofInt offense.range.length) := rfl
  simp only [failure?, numberAt?, Xml.attribute?_unified, linter, message,
    severity, line, column, length, Option.bind_eq_bind, Option.bind_some,
    Text.integer?_ofInt]
  rfl

theorem case?_testCaseXml (depth : Nat) (file : String × List Offense) :
    case? (Xml.item depth (testCaseXml file).unified) =
      some (reportedCase file) := by
  have all : (file.2.map (failureXml file.1)).filter
      (·.name = "failure".toList) = file.2.map (failureXml file.1) := by
    apply Xml.filter_map_of_name
    intro offense
    rfl
  have failures : ((Xml.item depth (testCaseXml file).unified).children
      "failure").mapM failure? = some (file.2.map reportedFailure) := by
    rw [testCaseXml, Xml.children_unified, all, List.map_map]
    exact mapM_map_of_decodes (failure?_failureXml file.1 (depth + 1)) file.2
  have name : Xml.valueOf? "name" (testCaseXml file).attributes =
      some file.1.toList := rfl
  have path : Xml.valueOf? "file" (testCaseXml file).attributes =
      some file.1.toList := rfl
  simp only [case?, failures, Xml.attribute?_unified, name, path,
    Option.bind_eq_bind, Option.bind_some]
  rfl

theorem integer?_ofNat (number : Nat) :
    Text.integer? (Text.ofNat number) = some (number : Int) :=
  Text.integer?_ofInt number

theorem length_failures (files : List (String × List Offense)) :
    ((files.map reportedCase).flatMap (·.failures)).length =
      (files.flatMap (·.2)).length := by
  induction files with
  | nil => rfl
  | cons file later induction =>
      rw [List.map_cons, List.flatMap_cons, List.flatMap_cons,
        List.length_append, List.length_append, induction, reportedCase,
        List.length_map]

theorem suite?_suiteXml (metadata : Metadata) (stats : Stats) :
    suite? (Xml.item 0 (suiteXml metadata stats).unified) =
      some (reportedSuite stats) := by
  have cases : ((Xml.item 0 (suiteXml metadata stats).unified).children
      "testcase").mapM case? = some (reportedCases stats) := by
    have all : (stats.processedFiles.map testCaseXml).filter
        (·.name = "testcase".toList) = stats.processedFiles.map testCaseXml := by
      apply Xml.filter_map_of_name
      intro file
      rfl
    rw [suiteXml, Xml.children_unified,
      List.filter_cons_of_neg (by simp [Xml.name]), all, List.map_map]
    exact mapM_map_of_decodes (case?_testCaseXml 1) stats.processedFiles
  have named : (Xml.item 0 (suiteXml metadata stats).unified).isNamed
      "testsuite" = true := by
    rw [Xml.isNamed_item, Xml.name_unified]
    rfl
  have tests : numberAt? "tests" (Xml.item 0 (suiteXml metadata stats).unified) =
      some ((reportedCases stats).length : Int) := by
    have value : Xml.valueOf? "tests" (suiteXml metadata stats).attributes =
        some (Text.ofNat stats.processedFiles.length) := rfl
    rw [numberAt?, Xml.attribute?_unified, value, Option.bind_some,
      integer?_ofNat, reportedCases, List.length_map]
  have failures :
      numberAt? "failures" (Xml.item 0 (suiteXml metadata stats).unified) =
        some (((reportedCases stats).flatMap (·.failures)).length : Int) := by
    have value : Xml.valueOf? "failures" (suiteXml metadata stats).attributes =
        some (Text.ofNat stats.totalOffenses) := rfl
    rw [numberAt?, Xml.attribute?_unified, value, Option.bind_some,
      integer?_ofNat, reportedCases, length_failures]
    rfl
  rw [suite?, if_pos named, tests, failures, cases]
  rfl

/-! ## The text of the report -/

theorem isNamed_failureXml (filename : Text) (offense : Offense) :
    (failureXml filename offense).IsNamed := by
  refine ⟨by decide, Xml.areNamed_iff.mpr ?_⟩
  simp only [List.map_cons, List.map_nil]
  decide

theorem isNamed_testCaseXml (file : String × List Offense) :
    (testCaseXml file).IsNamed := by
  refine ⟨by decide, Xml.areNamed_iff.mpr ?_, Xml.areNamedAll_iff.mpr ?_⟩
  · simp only [List.map_cons, List.map_nil]
    decide
  · rw [List.forall_mem_map]
    intro offense _
    exact isNamed_failureXml file.1 offense

theorem isNamed_propertyXml (property : Text × Text) :
    (propertyXml property).IsNamed := by
  refine ⟨by decide, Xml.areNamed_iff.mpr ?_⟩
  simp only [List.map_cons, List.map_nil]
  decide

theorem isNamed_suiteXml (metadata : Metadata) (stats : Stats) :
    (suiteXml metadata stats).IsNamed := by
  refine ⟨by decide, Xml.areNamed_iff.mpr ?_, Xml.areNamedAll_iff.mpr ?_⟩
  · simp only [List.map_cons, List.map_nil]
    decide
  · rw [List.forall_mem_cons]
    constructor
    · refine ⟨by decide, Xml.areNamed_iff.mpr (by decide),
        Xml.areNamedAll_iff.mpr ?_⟩
      rw [List.forall_mem_map]
      intro property _
      exact isNamed_propertyXml property
    · rw [List.forall_mem_map]
      intro file _
      exact isNamed_testCaseXml file

theorem areLegal_ofInt (number : Int) : AreLegal (Text.ofInt number) := by
  intro c member
  rcases Text.mem_ofInt member with rfl | isDigit
  · decide
  · exact (Xml.isLegal_of_isDigit isDigit).1

theorem areLegal_ofNat (number : Nat) : AreLegal (Text.ofNat number) :=
  areLegal_ofInt number

theorem areLegal_label (severity : Severity) : AreLegal severity.label := by
  cases severity <;> decide

theorem hasLegalTexts_failureXml (filename : Text) (offense : Offense) :
    (failureXml filename offense).HasLegalTexts ↔
      AreLegal filename ∧ AreLegal offense.linterName ∧
        AreLegal offense.message := by
  have marks : AreLegal ": " ∧ AreLegal " at " ∧ Xml.IsLegal ':' := by decide
  simp only [failureXml, failureMessage, Xml.HasLegalTexts,
    Xml.areLegalValues_cons, Xml.areLegalValues_nil, Xml.areLegal_append,
    Xml.areLegal_cons, areLegal_ofInt, areLegal_label, marks]
  tauto

theorem hasLegalTexts_testCaseXml (file : String × List Offense) :
    (testCaseXml file).HasLegalTexts ↔ AreLegal file.1 ∧
      ∀ offense ∈ file.2,
        AreLegal offense.linterName ∧ AreLegal offense.message := by
  simp only [testCaseXml, Xml.HasLegalTexts, Xml.haveLegalTexts_iff,
    List.forall_mem_map, hasLegalTexts_failureXml, Xml.areLegalValues_cons,
    Xml.areLegalValues_nil]
  constructor
  · rintro ⟨legal, offenses⟩
    exact ⟨legal.1, fun offense member => (offenses offense member).2⟩
  · rintro ⟨legal, offenses⟩
    exact ⟨⟨legal, legal, trivial⟩,
      fun offense member => ⟨legal, offenses offense member⟩⟩

theorem hasLegalTexts_propertyXml (property : Text × Text) :
    (propertyXml property).HasLegalTexts ↔
      AreLegal property.1 ∧ AreLegal property.2 := by
  simp [propertyXml, Xml.HasLegalTexts, Xml.AreLegalValues]

theorem hasLegalTexts_properties (metadata : Metadata) (stats : Stats) :
    (∀ property ∈ properties metadata stats,
        AreLegal property.1 ∧ AreLegal property.2) ↔
      metadata.HasLegalTexts := by
  have names : AreLegal "erb_lint_version" ∧ AreLegal "python_implementation" ∧
      AreLegal "python_version" ∧ AreLegal "platform" ∧ AreLegal "found" ∧
      AreLegal "ignored" := by decide
  simp only [properties, List.forall_mem_cons, names, areLegal_ofInt,
    List.not_mem_nil, false_implies, implies_true, true_and, and_true]
  constructor
  · rintro ⟨version, implementation, implementationVersion, platform⟩
    exact ⟨version, implementation, implementationVersion, platform⟩
  · intro legal
    exact ⟨legal.version, legal.implementation, legal.implementationVersion,
      legal.platform⟩

theorem hasLegalTexts_suiteXml (metadata : Metadata) (stats : Stats) :
    (suiteXml metadata stats).HasLegalTexts ↔
      metadata.HasLegalTexts ∧ stats.HasLegalTexts := by
  have name : AreLegal "erblint" := by decide
  simp only [suiteXml, Xml.HasLegalTexts, Xml.haveLegalTexts_iff,
    Xml.areLegalValues_cons, Xml.areLegalValues_nil, List.forall_mem_cons,
    List.forall_mem_map, hasLegalTexts_propertyXml, hasLegalTexts_properties,
    hasLegalTexts_testCaseXml, name, areLegal_ofNat, true_and]
  rfl

/-- The JUnit report is a document if and only if every path, every linter name
and every message has only characters that a document may have; what the
environment says of itself has to have no others either.  Then the report is read
as one root, which decodes to the run: to one case for each file, in order, with
the path as its name and its file, and in it one failure for each offense, in
order, with its linter, the message behind the name of the linter, its severity,
line, column and length.  The numbers of the suite are those of its cases and of
their failures. -/
theorem junit_decodes_to_run (style : ReportStyle) (stats : Stats) :
    ((∃ root, Xml.IsDocument (ReportFormat.junit.render style stats) root) ↔
      style.metadata.HasLegalTexts ∧ stats.HasLegalTexts) ∧
    ∀ root, Xml.IsDocument (ReportFormat.junit.render style stats) root →
      Xml.read? (ReportFormat.junit.render style stats) = some root ∧
      suite? root = some (reportedSuite stats) := by
  have named := isNamed_suiteXml style.metadata stats
  have isDocument_iff := Xml.isDocument_document_iff named
  rw [hasLegalTexts_suiteXml] at isDocument_iff
  refine ⟨isDocument_iff, fun root isDocument => ⟨isDocument.read?_eq, ?_⟩⟩
  have legal := (hasLegalTexts_suiteXml style.metadata stats).mpr
    (isDocument_iff.mp ⟨root, isDocument⟩)
  obtain rfl := isDocument.unique (Xml.isDocument_document named legal)
  exact suite?_suiteXml style.metadata stats

end Report

end TemplateLint
