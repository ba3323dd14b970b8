import TemplateLint.Text

/-!
# Wildcard patterns

A star stands for any text, a question mark for one character, and a set in
brackets for one of its characters.  A pattern is read into pieces, each of
which takes one character except the star.  Inside brackets a hyphen joins two
characters to a range; a range whose ends are in the wrong order is dropped.
-/

namespace TemplateLint.Wildcard

/-- What one part of a pattern stands for. -/
inductive Piece where
  | star
  | anything
  | nothing
  | literal (c : Char)
  | set (negated : Bool) (ranges : List (Char × Char))
  deriving DecidableEq

/-- The inside of a set, from the text after its bracket.  A closing bracket
that comes first belongs to the set. -/
def setText? (text : Text) : Option Text :=
  let opening := match text with
    | '!' :: ']' :: _ => ['!', ']']
    | '!' :: _ => ['!']
    | ']' :: _ => [']']
    | _ => []
  let body := text.drop opening.length
  if ']' ∈ body then some (opening ++ body.takeWhile (· ≠ ']')) else none

/-- Cuts at the hyphens that join ranges: none of the next `waiting`
characters can be one. -/
def chunks (waiting : Nat) : Text → Text × List Text
  | [] => ([], [])
  | c :: rest =>
      if c = '-' ∧ waiting = 0 then
        let later := chunks 2 rest
        ([], later.1 :: later.2)
      else
        let later := chunks (waiting - 1) rest
        (c :: later.1, later.2)

/-- A hyphen with nothing behind it stands for itself. -/
def closeLast (first : Text) : List Text → Text × List Text
  | [] => (first, [])
  | [[]] => (first ++ ['-'], [])
  | next :: later =>
      let closed := closeLast next later
      (first, closed.1 :: closed.2)

/-- Joins two chunks where the range between them is empty, beginning with the
last ones. -/
def dropEmptyRanges (first : Text) : List Text → Text × List Text
  | [] => (first, [])
  | next :: later =>
      let cleaned := dropEmptyRanges next later
      match first.getLast?, cleaned.1.head? with
      | some low, some high =>
          if high < low then (first.dropLast ++ cleaned.1.drop 1, cleaned.2)
          else (first, cleaned.1 :: cleaned.2)
      | _, _ => (first, cleaned.1 :: cleaned.2)

/-- A character of a set, or a hyphen that joins two of them. -/
inductive Mark where
  | char (c : Char)
  | hyphen
  deriving DecidableEq

def marks (first : Text) (later : List Text) : List Mark :=
  first.map .char ++ later.flatMap fun chunk => .hyphen :: chunk.map .char

def ranges : List Mark → List (Char × Char)
  | .char low :: .hyphen :: .char high :: rest => (low, high) :: ranges rest
  | .char c :: rest => (c, c) :: ranges rest
  | .hyphen :: rest => ('-', '-') :: ranges rest
  | [] => []

/-- The piece for the inside of a set.  An exclamation mark that comes first
once empty ranges are gone negates the rest. -/
def setPiece (inside : Text) : Piece :=
  let cut := chunks (if inside.head? = some '!' then 2 else 1) inside
  let closed := closeLast cut.1 cut.2
  let cleaned := dropEmptyRanges closed.1 closed.2
  match marks cleaned.1 cleaned.2 with
  | [] => .nothing
  | [.char '!'] => .anything
  | .char '!' :: rest => .set true (ranges rest)
  | all => .set false (ranges all)

/-- The pieces of a pattern; the first `skipped` characters belong to the set
before.  A bracket that is not closed stands for itself. -/
def piecesFrom (skipped : Nat) : Text → List Piece
  | [] => []
  | c :: rest =>
      match skipped with
      | more + 1 => piecesFrom more rest
      | 0 =>
          if c = '*' then .star :: piecesFrom 0 rest
          else if c = '?' then .anything :: piecesFrom 0 rest
          else if c = '[' then
            match setText? rest with
            | some inside =>
                setPiece inside :: piecesFrom (inside.length + 1) rest
            | none => .literal '[' :: piecesFrom 0 rest
          else .literal c :: piecesFrom 0 rest

def pieces (pattern : Text) : List Piece := piecesFrom 0 pattern

/-- Whether a piece other than the star takes a character. -/
def Piece.takes (piece : Piece) (c : Char) : Bool :=
  match piece with
  | .star => true
  | .anything => true
  | .nothing => false
  | .literal expected => c = expected
  | .set negated members =>
      members.any (fun range => range.1 ≤ c && c ≤ range.2) ≠ negated

/-- How an attempt to match a text ends.  It is exhausted when no later part of
the text can do better. -/
inductive Attempt where
  | matched
  | mismatch
  | exhausted
  deriving DecidableEq, Repr

/-- The first attempt at a text or one of its ends that is no mismatch. -/
def firstEnd (attempt : Text → Attempt) : Text → Attempt
  | [] =>
      match attempt [] with
      | .matched => .matched
      | _ => .exhausted
  | c :: rest =>
      match attempt (c :: rest) with
      | .mismatch => firstEnd attempt rest
      | other => other

/-- Matches pieces with a text from its beginning to its end.  A star takes as
little as it can: if the pieces behind it run out of text, so they do behind
any longer part, and the attempt is given up as a whole. -/
def matchPieces : List Piece → Text → Attempt
  | [], [] => .matched
  | [], _ :: _ => .mismatch
  | .star :: rest, text => firstEnd (matchPieces rest) text
  | _ :: _, [] => .exhausted
  | piece :: rest, c :: text =>
      if piece.takes c then matchPieces rest text else .mismatch

/-- Whether a pattern matches the whole of a text. -/
def isMatch (pattern text : Text) : Bool :=
  matchPieces (pieces pattern) text = .matched

end TemplateLint.Wildcard
