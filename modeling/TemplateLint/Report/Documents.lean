import TemplateLint.Json.Printer
import TemplateLint.Report
import TemplateLint.Xml

/-!
# Reports for machines

The JSON report is one object with the files and a summary.  The JUnit report
has one test case for each file and one failure for each offense.
-/

namespace TemplateLint.Report

def locationJson (range : SourceRange) : Json :=
  .object
    [("start_line", .integer range.line),
      ("start_column", .integer range.column),
      ("last_line", .integer range.lastLine),
      ("last_column", .integer range.lastColumn),
      ("length", .integer range.length)]

def offenseJson (offense : Offense) : Json :=
  .object
    [("linter", .string offense.linterName),
      ("message", .string (String.ofList offense.message)),
      ("severity", .string offense.effectiveSeverity.label),
      ("location", locationJson offense.range)]

def fileJson (file : String × List Offense) : Json :=
  .object
    [("path", .string file.1), ("offenses", .array (file.2.map offenseJson))]

def metadataJson (metadata : Metadata) : Json :=
  .object
    [("erb_lint_version", .string metadata.version),
      ("python_implementation", .string metadata.implementation),
      ("python_version", .string metadata.implementationVersion),
      ("platform", .string metadata.platform)]

def summaryJson (stats : Stats) : Json :=
  .object
    [("offenses", .integer stats.totalOffenses),
      ("found", .integer stats.found),
      ("ignored", .integer stats.ignored),
      ("inspected_files", .integer stats.processedFiles.length),
      ("corrected", .integer stats.corrected)]

/-- The JSON report as a value. -/
def jsonValue (metadata : Metadata) (stats : Stats) : Json :=
  .object
    [("metadata", metadataJson metadata),
      ("files", .array (stats.processedFiles.map fileJson)),
      ("summary", summaryJson stats)]

def json (metadata : Metadata) (stats : Stats) : Text :=
  (jsonValue metadata stats).indented

/-- The linter and message of an offense. -/
def failureMessage (offense : Offense) : Text :=
  offense.linterName.toList ++ ": " ++ offense.message

def failureXml (filename : Text) (offense : Offense) : Xml :=
  .leaf "failure"
    [("message", failureMessage offense),
      ("type", offense.linterName),
      ("severity", offense.effectiveSeverity.label),
      ("line", Text.ofInt offense.range.line),
      ("column", Text.ofInt offense.range.column),
      ("length", Text.ofInt offense.range.length)]
    (failureMessage offense ++ " at " ++ filename ++ ':'
      :: Text.ofInt offense.range.line ++ ':'
      :: Text.ofInt offense.range.column)

def testCaseXml (file : String × List Offense) : Xml :=
  .node "testcase" [("name", file.1), ("file", file.1)]
    (file.2.map (failureXml file.1))

def propertyXml (property : Text × Text) : Xml :=
  .leaf "property" [("name", property.1), ("value", property.2)] []

/-- What the report says of the run as a whole. -/
def properties (metadata : Metadata) (stats : Stats) : List (Text × Text) :=
  [("erb_lint_version", metadata.version),
    ("python_implementation", metadata.implementation),
    ("python_version", metadata.implementationVersion),
    ("platform", metadata.platform),
    ("found", Text.ofInt stats.found),
    ("ignored", Text.ofInt stats.ignored)]

/-- The JUnit report as an element. -/
def suiteXml (metadata : Metadata) (stats : Stats) : Xml :=
  .node "testsuite"
    [("name", "erblint"),
      ("tests", Text.ofNat stats.processedFiles.length),
      ("failures", Text.ofNat stats.totalOffenses)]
    (.node "properties" [] ((properties metadata stats).map propertyXml)
      :: stats.processedFiles.map testCaseXml)

def junit (metadata : Metadata) (stats : Stats) : Text :=
  (suiteXml metadata stats).document

end TemplateLint.Report
