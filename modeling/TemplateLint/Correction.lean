import TemplateLint.Text

/-!
# Corrections

A correction replaces the text between two positions.  `applyAll` makes a
list of them from the end of the text backwards, so that a replacement does
not move the positions of those still to be made.
-/

namespace TemplateLint

structure Correction where
  beginPos : Int
  endPos : Int
  replacement : Text
  deriving DecidableEq

namespace Correction

/-- Two corrections conflict when they begin together, where the order of
insertions would be ambiguous, or when their ranges share a character. -/
def overlaps (first second : Correction) : Bool :=
  first.beginPos = second.beginPos
    || (first.beginPos < second.endPos && second.beginPos < first.endPos)

/-- The text with one correction made. -/
def apply (content : Text) (correction : Correction) : Text :=
  content.upTo correction.beginPos ++ correction.replacement
    ++ content.since correction.endPos

/-- Whether a correction is made no later than another: those further back in
the text come first. -/
def precedes (first second : Correction) : Bool :=
  second.beginPos < first.beginPos
    || (first.beginPos = second.beginPos && second.endPos ≤ first.endPos)

/-- Corrections from the end of the text backwards; those with equal ranges
stay in their order. -/
def ordered (corrections : List Correction) : List Correction :=
  corrections.mergeSort precedes

/-- The text with all corrections made. -/
def applyAll (content : Text) (corrections : List Correction) : Text :=
  (ordered corrections).foldl apply content

end Correction

end TemplateLint
