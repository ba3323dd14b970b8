import TemplateLint.Linter

/-!
# Checks of spaces and tabs in lines

`TrailingWhitespace` looks at the end of each line and `SpaceIndentation` at
its beginning.
-/

namespace TemplateLint

/-- The two characters that indent and that may trail. -/
def isSpaceOrTab (c : Char) : Bool := c = ' ' || c = '\t'

/-- Collects what a function says of each line and the position where the line
begins. -/
def overLines (visit : Nat → Text → List α) : Nat → List Text → List α
  | _, [] => []
  | position, line :: later =>
      visit position line ++ overLines visit (position + line.length + 1) later

namespace TrailingWhitespace

/-- The line without one carriage return at its end. -/
def withoutReturn (line : Text) : Text :=
  if line.getLast? = some '\r' then line.dropLast else line

def inLine (position : Nat) (line : Text) : List Finding :=
  let body := withoutReturn line
  let trailing := Text.lastRun isSpaceOrTab body
  if trailing.isEmpty then []
  else
    [.replacing (position + (body.length - trailing.length))
      (position + body.length) "Extra whitespace detected at end of line." []]

def findings (content : Text) : List Finding :=
  overLines inLine 0 content.lines

def check (_ : LinterConfig) (source : Source) : List Step :=
  (findings source.content).map .report

end TrailingWhitespace

namespace SpaceIndentation

/-- A line with tabs replaced by spaces up to the next multiple of the tab
width; `column` characters precede it. -/
def expandTabs (width column : Nat) : Text → Text
  | [] => []
  | c :: rest =>
      if c = '\t' then
        let spaces := width - column % width
        List.replicate spaces ' ' ++ expandTabs width (column + spaces) rest
      else c :: expandTabs width (column + 1) rest

/-- The spaces and tabs that begin a line, if there is a tab among them. -/
def tabbedIndent? (line : Text) : Option Text :=
  let indent := line.takeWhile isSpaceOrTab
  if '\t' ∈ indent then some indent else none

/-- Where indents with tabs begin, and the indents. -/
def indents (content : Text) : List (Nat × Text) :=
  overLines (fun position line =>
    (tabbedIndent? line).toList.map fun indent => (position, indent))
    0 content.lines

def finding (width : Nat) (indent : Nat × Text) : Finding :=
  .replacing indent.1 (indent.1 + indent.2.length)
    "Indent with spaces instead of tabs." (expandTabs width 0 indent.2)

def findings (width : Nat) (content : Text) : List Finding :=
  (indents content).map (finding width)

/-- The largest width that tabs can be expanded to. -/
def widestTab : Nat := 2147483647

/-- The option is looked up for each indent that has a tab. -/
def check (config : LinterConfig) (source : Source) : List Step :=
  match config.own with
  | .tabWidth width =>
      if width ≤ widestTab then (findings width source.content).map .report
      else (indents source.content).map fun _ => .fail .tabWidthTooLarge
  | other =>
      (indents source.content).map fun _ =>
        .fail (.missingOption other.schema "tab_width")

end SpaceIndentation

end TemplateLint
