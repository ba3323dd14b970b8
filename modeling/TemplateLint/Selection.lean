import TemplateLint.Linter

/-!
# Selection of corrections

The corrections that linters propose for one source are taken in the order of
linters and offenses.  One that conflicts with an earlier accepted one is
dropped.
-/

namespace TemplateLint

/-- An offense with the correction proposed for it. -/
structure Candidate where
  offense : Offense
  correction : Correction

/-- The candidates of a linter: none unless it is correctable. -/
def Linter.candidates (linter : Linter) : List Candidate :=
  linter.offenses.filterMap fun offense =>
    (linter.correction? offense).map fun correction => ⟨offense, correction⟩

structure Selection where
  accepted : List Candidate
  dropped : List Candidate

namespace Selection

def empty : Selection := ⟨[], []⟩

/-- Accepts a candidate unless it conflicts with an accepted one. -/
def consider (selection : Selection) (candidate : Candidate) : Selection :=
  if selection.accepted.any fun kept =>
      candidate.correction.overlaps kept.correction then
    { selection with dropped := selection.dropped ++ [candidate] }
  else { selection with accepted := selection.accepted ++ [candidate] }

/-- The selection from the candidates of several linters. -/
def ofLinters (linters : List Linter) : Selection :=
  (linters.flatMap Linter.candidates).foldl consider empty

def corrections (selection : Selection) : List Correction :=
  selection.accepted.map (·.correction)

/-- The offenses whose corrections were dropped. -/
def droppedOffenses (selection : Selection) : List Offense :=
  selection.dropped.map (·.offense)

/-- The text with the accepted corrections made. -/
def corrected (selection : Selection) (content : Text) : Text :=
  Correction.applyAll content selection.corrections

end Selection

end TemplateLint
