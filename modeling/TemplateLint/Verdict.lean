import TemplateLint.Offense

/-!
# Verdicts

The fail level divides offenses into those found and those ignored.  A run
succeeds when none is found.
-/

namespace TemplateLint

/-- The level from which offenses count when none is given. -/
def Severity.defaultFailLevel : Severity := .refactor

def Offense.counts (failLevel : Severity) (offense : Offense) : Bool :=
  failLevel ≤ offense.effectiveSeverity

structure Verdict where
  found : Nat
  ignored : Nat
  deriving DecidableEq

def Verdict.success (verdict : Verdict) : Bool := verdict.found = 0

/-- Offenses at or above the fail level, and those below it. -/
def divide (failLevel : Severity) (offenses : List Offense) :
    List Offense × List Offense :=
  offenses.partition (·.counts failLevel)

def Verdict.of (failLevel : Severity) (offenses : List Offense) : Verdict :=
  let divided := divide failLevel offenses
  ⟨divided.1.length, divided.2.length⟩

end TemplateLint
