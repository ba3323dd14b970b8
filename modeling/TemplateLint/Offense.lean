import TemplateLint.Correction
import TemplateLint.Json
import TemplateLint.Severity
import TemplateLint.Source

/-!
# Offenses

A finding is what a check says about a range of positions; an offense is a
finding of a named linter whose range lies inside the source.
-/

namespace TemplateLint

/-- What a check reports, before its range has been looked up. -/
structure Finding where
  beginPos : Int
  endPos : Int
  message : Text
  severity : Option Severity := none
  context : Json := .null
  correction : Option Correction := none

/-- A finding whose correction replaces its own range. -/
def Finding.replacing (beginPos endPos : Nat) (message replacement : Text) :
    Finding :=
  { beginPos, endPos, message
    correction := some ⟨beginPos, endPos, replacement⟩ }

structure Offense where
  linterName : String
  range : SourceRange
  message : Text
  severity : Option Severity
  context : Json
  correction : Option Correction

/-- An offense without a severity counts as an error. -/
def Offense.effectiveSeverity (offense : Offense) : Severity :=
  offense.severity.getD .error

/-- The offense of a linter for one of its findings. -/
def Finding.offense (finding : Finding) (linterName : String)
    (range : SourceRange) : Offense :=
  ⟨linterName, range, finding.message, finding.severity, finding.context,
    finding.correction⟩

end TemplateLint
