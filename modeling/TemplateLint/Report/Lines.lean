import TemplateLint.Report

/-!
# Reports in lines

The compact report has one line for each offense.  The multiline report has an
empty line, the message and the place of each offense, and ends in an empty
line.
-/

namespace TemplateLint.Report

def compactLine (style : ReportStyle) (located : String × Offense) : Text :=
  located.1.toList ++ ':' :: Text.ofInt located.2.range.line ++ ':'
    :: Text.ofInt located.2.range.column ++ ": " ++ style.message located.2

def compact (style : ReportStyle) (stats : Stats) : Text :=
  Text.join ['\n'] (stats.located.map (compactLine style))

def multilineEntry (style : ReportStyle) (located : String × Offense) :
    List Text :=
  [[], style.message located.2,
    "In file: " ++ located.1.toList ++ ':' :: Text.ofInt located.2.range.line]

def multiline (style : ReportStyle) (stats : Stats) : Text :=
  let lines := stats.located.flatMap (multilineEntry style)
  Text.join ['\n'] (if lines.isEmpty then [] else lines ++ [[]])

end TemplateLint.Report
