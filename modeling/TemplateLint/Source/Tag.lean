import TemplateLint.Source

/-!
# Template tags

A tag opens with `<%` and an indicator, holds code, and closes with an
optional trim mark and `%>`.  The indicator is the longest one that leaves a
closing delimiter behind it, and the code is the shortest one.  The text `<%%`
stands for a literal `<%`; the scanner matches it like a tag, up to the next
closing delimiter, and `tags` leaves it out.
-/

namespace TemplateLint

/-- What follows the opening delimiter. -/
inductive Indicator where
  | plain
  | output
  | rawOutput
  | trimLeft
  | comment
  | escape
  deriving DecidableEq, Repr

def Indicator.text : Indicator → Text
  | .plain => []
  | .output => ['=']
  | .rawOutput => ['=', '=']
  | .trimLeft => ['-']
  | .comment => ['#']
  | .escape => ['%']

/-- The order in which indicators are tried: none is the last resort. -/
def Indicator.candidates : List Indicator :=
  [.rawOutput, .output, .trimLeft, .comment, .escape, .plain]

/-- What precedes the closing delimiter and removes the newline after it. -/
inductive TrimMark where
  | dash
  | equals
  deriving DecidableEq, Repr

def TrimMark.char : TrimMark → Char
  | .dash => '-'
  | .equals => '='

/-- The text of an optional trim mark. -/
def TrimMark.text : Option TrimMark → Text
  | none => []
  | some mark => [mark.char]

/-- A tag by its parts; its positions follow from where it begins. -/
structure Tag where
  beginPos : Nat
  indicator : Indicator
  code : Text
  trim : Option TrimMark
  deriving DecidableEq

namespace Tag

/-- The characters that the tag was read from. -/
def text (tag : Tag) : Text :=
  ['<', '%'] ++ tag.indicator.text ++ tag.code ++ TrimMark.text tag.trim
    ++ ['%', '>']

def codeBegin (tag : Tag) : Nat :=
  tag.beginPos + 2 + tag.indicator.text.length

def codeEnd (tag : Tag) : Nat := tag.codeBegin + tag.code.length

def endPos (tag : Tag) : Nat :=
  tag.codeEnd + (TrimMark.text tag.trim).length + 2

/-- Where the trim mark stands, or would stand. -/
def trimPos (tag : Tag) : Nat := tag.endPos - 3

/-- The closing delimiter at the start of a text, with its trim mark. -/
def closing? : Text → Option (Option TrimMark)
  | '-' :: '%' :: '>' :: _ => some (some .dash)
  | '=' :: '%' :: '>' :: _ => some (some .equals)
  | '%' :: '>' :: _ => some none
  | _ => none

/-- The shortest code before a closing delimiter, with the trim mark. -/
def body? : Text → Option (Text × Option TrimMark)
  | [] => none
  | c :: rest =>
      match closing? (c :: rest) with
      | some trim => some ([], trim)
      | none => (body? rest).map fun body => (c :: body.1, body.2)

/-- The tag with a given indicator, from the text after the opening
delimiter. -/
def withIndicator? (beginPos : Nat) (inner : Text) (indicator : Indicator) :
    Option Tag :=
  if indicator.text.isPrefixOf inner then
    (body? (inner.drop indicator.text.length)).map fun body =>
      ⟨beginPos, indicator, body.1, body.2⟩
  else none

/-- The tag at the start of a text. -/
def at? (beginPos : Nat) : Text → Option Tag
  | '<' :: '%' :: inner =>
      Indicator.candidates.findSome? (withIndicator? beginPos inner)
  | _ => none

/-- Tags and escapes from left to right.  The first `skipped` characters
belong to the match before. -/
def scanFrom (skipped position : Nat) : Text → List Tag
  | [] => []
  | c :: rest =>
      match skipped with
      | more + 1 => scanFrom more (position + 1) rest
      | 0 =>
          match at? position (c :: rest) with
          | some tag => tag :: scanFrom (tag.text.length - 1) (position + 1) rest
          | none => scanFrom 0 (position + 1) rest

/-- All matches of a text, tags and escapes alike. -/
def scan (text : Text) : List Tag := scanFrom 0 0 text

end Tag

/-- The tags of a text. -/
def Text.tags (text : Text) : List Tag :=
  (Tag.scan text).filter fun tag => tag.indicator ≠ .escape

end TemplateLint
