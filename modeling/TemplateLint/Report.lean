import TemplateLint.Offense

/-!
# Reports

A report is made from the counts of a run and the offenses of each file.  It
may announce the run, shows the offenses, and may sum them up; every part is
a text.
-/

namespace TemplateLint

/-- The counts of a run and the offenses of each file, in the order of the
files. -/
structure Stats where
  found : Int := 0
  ignored : Int := 0
  corrected : Int := 0
  linters : Int := 0
  autocorrectableLinters : Int := 0
  files : Int := 0
  processedFiles : List (String × List Offense) := []

namespace Stats

/-- The offenses of all files. -/
def offenses (stats : Stats) : List Offense :=
  stats.processedFiles.flatMap (·.2)

def totalOffenses (stats : Stats) : Nat := stats.offenses.length

/-- Sets the offenses of a file; a file seen before keeps its place. -/
def putFile (filename : String) (offenses : List Offense) :
    List (String × List Offense) → List (String × List Offense)
  | [] => [(filename, offenses)]
  | file :: later =>
      if file.1 = filename then (filename, offenses) :: later
      else file :: putFile filename offenses later

def record (stats : Stats) (filename : String) (offenses : List Offense) :
    Stats :=
  { stats with processedFiles := putFile filename offenses stats.processedFiles }

/-- Every offense with the name of its file. -/
def located (stats : Stats) : List (String × Offense) :=
  stats.processedFiles.flatMap fun file => file.2.map fun offense =>
    (file.1, offense)

end Stats

/-- What reports say of the program that made them. -/
structure Metadata where
  version : String
  implementation : String
  implementationVersion : String
  platform : String

/-- How a report is to look. -/
structure ReportStyle where
  autocorrect : Bool
  showLinterNames : Bool
  metadata : Metadata

/-- The message of an offense, perhaps after the name of its linter. -/
def ReportStyle.message (style : ReportStyle) (offense : Offense) : Text :=
  if style.showLinterNames then
    '[' :: offense.linterName.toList ++ "] " ++ offense.message
  else offense.message

/-- The line that announces a run. -/
def Stats.preview (stats : Stats) (autocorrect : Bool) : Text :=
  if autocorrect then
    "Linting and autocorrecting " ++ Text.ofInt stats.files ++ " files with "
      ++ Text.ofInt stats.linters ++ " linters ("
      ++ Text.ofInt stats.autocorrectableLinters ++ " autocorrectable)..."
  else
    "Linting " ++ Text.ofInt stats.files ++ " files with "
      ++ Text.ofInt stats.linters ++ " linters..."

/-- The lines that sum up a run. -/
def Stats.summary (stats : Stats) : Text :=
  if 0 < stats.corrected then
    if 0 < stats.found then
      Text.ofInt stats.corrected ++ " error(s) corrected and "
        ++ Text.ofInt stats.found ++ " error(s) remaining in ERB files"
    else Text.ofInt stats.corrected ++ " error(s) corrected in ERB files"
  else
    let ignored : List Text :=
      if 0 < stats.ignored then
        [Text.ofInt stats.ignored ++ " error(s) were ignored in ERB files"]
      else []
    let found : List Text :=
      if 0 < stats.found then
        [Text.ofInt stats.found ++ " error(s) were found in ERB files"]
      else []
    if (ignored ++ found).isEmpty then "No errors were found in ERB files"
    else Text.join ['\n'] (ignored ++ found)

end TemplateLint
