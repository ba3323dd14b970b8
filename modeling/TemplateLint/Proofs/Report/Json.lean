import TemplateLint.Proofs.Json.Printer
import TemplateLint.Report.Format

/-!
# The JSON report decodes to the run

A reader of the report looks for its parts by their names.  What it finds is
what the counts and the offenses of the run say, file by file and offense by
offense.
-/

namespace TemplateLint.Report

/-! ## Decoding -/

structure ReportedOffense where
  linter : String
  message : Text
  severity : String
  startLine : Int
  startColumn : Int
  lastLine : Int
  lastColumn : Int
  length : Int
  deriving DecidableEq

structure ReportedFile where
  path : String
  offenses : List ReportedOffense
  deriving DecidableEq

/-- What a report says of a run. -/
structure ReportedRun where
  files : List ReportedFile
  offenses : Int
  found : Int
  ignored : Int
  inspectedFiles : Int
  corrected : Int
  deriving DecidableEq

def stringAt? (key : String) (value : Json) : Option String :=
  match value.field? key with
  | some (.string found) => some found
  | _ => none

def integerAt? (key : String) (value : Json) : Option Int :=
  match value.field? key with
  | some (.integer found) => some found
  | _ => none

def itemsAt? (key : String) (value : Json) : Option (List Json) :=
  match value.field? key with
  | some (.array found) => some found
  | _ => none

def offense? (value : Json) : Option ReportedOffense := do
  let location ← value.field? "location"
  return {
    linter := ← stringAt? "linter" value
    message := (← stringAt? "message" value).toList
    severity := ← stringAt? "severity" value
    startLine := ← integerAt? "start_line" location
    startColumn := ← integerAt? "start_column" location
    lastLine := ← integerAt? "last_line" location
    lastColumn := ← integerAt? "last_column" location
    length := ← integerAt? "length" location }

def file? (value : Json) : Option ReportedFile := do
  return {
    path := ← stringAt? "path" value
    offenses := ← (← itemsAt? "offenses" value).mapM offense? }

def run? (value : Json) : Option ReportedRun := do
  let summary ← value.field? "summary"
  return {
    files := ← (← itemsAt? "files" value).mapM file?
    offenses := ← integerAt? "offenses" summary
    found := ← integerAt? "found" summary
    ignored := ← integerAt? "ignored" summary
    inspectedFiles := ← integerAt? "inspected_files" summary
    corrected := ← integerAt? "corrected" summary }

/-! ## What there is to report -/

def reportedOffense (offense : Offense) : ReportedOffense where
  linter := offense.linterName
  message := offense.message
  severity := offense.effectiveSeverity.label
  startLine := offense.range.line
  startColumn := offense.range.column
  lastLine := offense.range.lastLine
  lastColumn := offense.range.lastColumn
  length := offense.range.length

def reportedFile (file : String × List Offense) : ReportedFile where
  path := file.1
  offenses := file.2.map reportedOffense

/-- The number of offenses of all files. -/
def offenseCount : List (String × List Offense) → Nat
  | [] => 0
  | file :: later => file.2.length + offenseCount later

def reportedRun (stats : Stats) : ReportedRun where
  files := stats.processedFiles.map reportedFile
  offenses := offenseCount stats.processedFiles
  found := stats.found
  ignored := stats.ignored
  inspectedFiles := stats.processedFiles.length
  corrected := stats.corrected

/-! ## Decoding what is reported -/

theorem offense?_offenseJson (offense : Offense) :
    offense? (offenseJson offense) = some (reportedOffense offense) := by
  simp [offense?, offenseJson, locationJson, reportedOffense, stringAt?,
    integerAt?, Json.field?]

/-- Items that are decoded one by one keep their number and order. -/
theorem mapM_map_of_decodes {Item Code Result : Type} {encode : Item → Code}
    {decode : Code → Option Result} {reported : Item → Result}
    (decodes : ∀ item, decode (encode item) = some (reported item))
    (items : List Item) :
    (items.map encode).mapM decode = some (items.map reported) := by
  induction items with
  | nil => rfl
  | cons item items induction => simp [decodes, induction]

theorem file?_fileJson (file : String × List Offense) :
    file? (fileJson file) = some (reportedFile file) := by
  have offenses := mapM_map_of_decodes offense?_offenseJson file.2
  simp [file?, fileJson, reportedFile, stringAt?, itemsAt?, Json.field?,
    offenses]

theorem length_offenses (files : List (String × List Offense)) :
    (files.flatMap (·.2)).length = offenseCount files := by
  induction files with
  | nil => rfl
  | cons file later induction =>
      rw [List.flatMap_cons, List.length_append, induction, offenseCount]

theorem run?_jsonValue (metadata : Metadata) (stats : Stats) :
    run? (jsonValue metadata stats) = some (reportedRun stats) := by
  have files := mapM_map_of_decodes file?_fileJson stats.processedFiles
  have total : stats.totalOffenses = offenseCount stats.processedFiles :=
    length_offenses stats.processedFiles
  simp [run?, jsonValue, summaryJson, reportedRun, integerAt?, itemsAt?,
    Json.field?, files, total]

/-! ## The text of the report -/

theorem areWritable_map {Item : Type} {encode : Item → Json}
    (isWritable : ∀ item, (encode item).IsWritable) (items : List Item) :
    Json.AreWritable (items.map encode) := by
  induction items with
  | nil => trivial
  | cons item items induction => exact ⟨isWritable item, induction⟩

theorem isWritable_offenseJson (offense : Offense) :
    (offenseJson offense).IsWritable := by
  simp [offenseJson, locationJson, Json.IsWritable, Json.HaveWritable]

theorem isWritable_fileJson (file : String × List Offense) :
    (fileJson file).IsWritable := by
  have offenses := areWritable_map isWritable_offenseJson file.2
  simp [fileJson, Json.IsWritable, Json.HaveWritable, offenses]

theorem isWritable_jsonValue (metadata : Metadata) (stats : Stats) :
    (jsonValue metadata stats).IsWritable := by
  have files := areWritable_map isWritable_fileJson stats.processedFiles
  simp [jsonValue, metadataJson, summaryJson, Json.IsWritable,
    Json.HaveWritable, files]

/-- For any counts and offenses, the JSON report is a text of the grammar.  It
spells one value, which the reader returns, and this value decodes to the run:
to the files in their order, each with its offenses in their order, and to the
counts. -/
theorem json_decodes_to_run (style : ReportStyle) (stats : Stats) :
    ∃ value,
      Json.IsText (ReportFormat.json.render style stats) value ∧
      (∀ other, Json.IsText (ReportFormat.json.render style stats) other →
        other = value) ∧
      Json.read? (ReportFormat.json.render style stats) = some value ∧
      run? value = some (reportedRun stats) := by
  have isText : Json.IsText (ReportFormat.json.render style stats)
      (jsonValue style.metadata stats) :=
    Json.isText_print (isWritable_jsonValue style.metadata stats)
      Json.Layout.isProper_indented
  exact ⟨_, isText, fun _ isTextToo => isTextToo.unique isText,
    isText.read?_eq, run?_jsonValue style.metadata stats⟩

end TemplateLint.Report
