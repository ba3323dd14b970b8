import TemplateLint.Report.Documents
import TemplateLint.Report.Lines

/-!
# Report formats

The four formats by name.  Formats for machines neither announce nor sum up a
run.
-/

namespace TemplateLint

inductive ReportFormat where
  | compact
  | json
  | junit
  | multiline
  deriving DecidableEq, Repr

namespace ReportFormat

/-- All formats, by their names in alphabetical order. -/
def available : List ReportFormat := [.compact, .json, .junit, .multiline]

def name : ReportFormat → String
  | .compact => "compact"
  | .json => "json"
  | .junit => "junit"
  | .multiline => "multiline"

def ofName? (name : String) : Option ReportFormat :=
  available.find? fun format => format.name = name

def default : ReportFormat := .multiline

/-- Whether the report is read by people. -/
def isForPeople : ReportFormat → Bool
  | .compact | .multiline => true
  | .json | .junit => false

/-- The announcement of a run. -/
def preview? (format : ReportFormat) (style : ReportStyle) (stats : Stats) :
    Option Text :=
  if format.isForPeople then some (stats.preview style.autocorrect) else none

def render (format : ReportFormat) (style : ReportStyle) (stats : Stats) :
    Text :=
  match format with
  | .compact => Report.compact style stats
  | .json => Report.json style.metadata stats
  | .junit => Report.junit style.metadata stats
  | .multiline => Report.multiline style stats

/-- The summary of a run. -/
def summary? (format : ReportFormat) (stats : Stats) : Option Text :=
  if format.isForPeople then some stats.summary else none

end ReportFormat

end TemplateLint
