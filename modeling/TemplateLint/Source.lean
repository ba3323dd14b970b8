import TemplateLint.Text

/-!
# Sources and positions

A source is the text of one file.  Positions count its characters; lines are
numbered from one and columns from zero.  A line begins at the start of the
text and after every newline, and a position belongs to the last line that
begins at or before it.
-/

namespace TemplateLint

/-- The text of one file. -/
structure Source where
  filename : String
  content : Text
  deriving DecidableEq

/-- A half-open range of positions, with the lines and columns of both ends. -/
structure SourceRange where
  beginPos : Int
  endPos : Int
  line : Int
  column : Int
  lastLine : Int
  lastColumn : Int
  deriving DecidableEq

def SourceRange.length (range : SourceRange) : Int :=
  range.endPos - range.beginPos

namespace Text

/-- Positions just after the newlines of a text that begins at `position`. -/
def startsAfterNewlines (position : Nat) : Text → List Nat
  | [] => []
  | c :: rest =>
      if c = '\n' then
        (position + 1) :: startsAfterNewlines (position + 1) rest
      else startsAfterNewlines (position + 1) rest

/-- Where the lines begin. -/
def lineStarts (text : Text) : List Nat := 0 :: startsAfterNewlines 0 text

/-- The last line from `low` to `high` that begins at or before a position,
found by halving.  Lines begin one behind the other; `low` is taken if all
others begin behind the position. -/
@[semireducible] def lastBegun (starts : Array Nat) (position : Int)
    (low high : Fin starts.size) : Fin starts.size :=
  if less : low < high then
    let middle : Fin starts.size := ⟨(low + high + 1) / 2, by omega⟩
    if starts[middle] ≤ position then lastBegun starts position middle high
    else lastBegun starts position low ⟨middle - 1, by omega⟩
  else low
termination_by high.val - low.val

/-- What of a text its ranges depend on: its length, and where its lines
begin. -/
structure LineTable where
  size : Nat
  starts : Array Nat
  begins : 0 < starts.size

def lineTable (text : Text) : LineTable :=
  ⟨text.length, (lineStarts text).toArray, Nat.zero_lt_succ _⟩

/-- The number of the line that holds a position and the position's distance
from the start of that line. -/
def LineTable.place (table : LineTable) (position : Int) : Nat × Int :=
  let line := lastBegun table.starts position ⟨0, table.begins⟩
    ⟨table.starts.size - 1, Nat.sub_one_lt_of_lt table.begins⟩
  (line + 1, position - table.starts[line])

/-- The line and column of a position.  Positions before the text belong to its
first line and positions behind it to its last. -/
def lineAndColumn (text : Text) (position : Int) : Nat × Int :=
  text.lineTable.place position

/-- Both ends of a numbered line, without its newline.  Numbers are entries of
the list of lines less one, so that zero means the last line. -/
def lineRange? (text : Text) (line : Int) : Option (Int × Int) := do
  let start ← entry? (lineStarts text) (line - 1)
  let content ← entry? (lines text) (line - 1)
  return (start, start + content.length)

end Text

/-- A range that does not lie inside its source. -/
structure RangeError where
  beginPos : Int
  endPos : Int
  filename : String
  size : Nat
  deriving DecidableEq

def RangeError.message (error : RangeError) : Text :=
  "range " ++ Text.ofInt error.beginPos ++ "..." ++ Text.ofInt error.endPos
    ++ " is outside of " ++ error.filename.toList ++ " ("
    ++ Text.ofNat error.size ++ " characters)"

def Source.lineTable (source : Source) : Text.LineTable :=
  source.content.lineTable

/-- The range between two positions of a source with a known table. -/
def Source.rangeWithin (source : Source) (table : Text.LineTable)
    (beginPos endPos : Int) : Except RangeError SourceRange :=
  if 0 ≤ beginPos ∧ beginPos ≤ endPos ∧ endPos ≤ table.size then
    let first := table.place beginPos
    let last := table.place endPos
    .ok ⟨beginPos, endPos, first.1, first.2, last.1, last.2⟩
  else .error ⟨beginPos, endPos, source.filename, table.size⟩

/-- The range between two positions of a source, the first not behind the
second. -/
def Source.range (source : Source) (beginPos endPos : Int) :
    Except RangeError SourceRange :=
  source.rangeWithin source.lineTable beginPos endPos

end TemplateLint
