import TemplateLint.Text

/-!
# Seams

A seam is a place inside a text, told by what stands on both sides of it: on
the left one character of a class or a run of them, and on the right one
character of each class of a row.  A run takes as many characters as it can,
and gives some of them back if the row cannot be read behind them.  Seams are
looked for from left to right, and no character stands beside two of them.
-/

namespace TemplateLint

/-- A kind of seam. -/
structure Seam where
  left : Char → Bool
  /-- Whether the left side may have more than one character. -/
  repeats : Bool
  right : List (Char → Bool)

namespace Seam

/-- The characters at the start of a text, one of each class. -/
def row? : List (Char → Bool) → Text → Option Text
  | [], _ => some []
  | _ :: _, [] => none
  | test :: tests, c :: rest =>
      if test c then (row? tests rest).map (c :: ·) else none

/-- Both sides of the seam that a text begins with. -/
def sides? (seam : Seam) : Text → Option (Text × Text)
  | [] => none
  | c :: rest =>
      if seam.left c then
        match if seam.repeats then sides? seam rest else none with
        | some (left, right) => some (c :: left, right)
        | none => (row? seam.right rest).map fun right => ([c], right)
      else none

/-- Fills the seams from left to right.  The first `skipped` characters stand
beside the seam before. -/
def fillFrom (seam : Seam) (filling : Char) (skipped : Nat) : Text → Text
  | [] => []
  | c :: rest =>
      match skipped with
      | more + 1 => fillFrom seam filling more rest
      | 0 =>
          match seam.sides? (c :: rest) with
          | some (left, right) =>
              left ++ filling :: right
                ++ fillFrom seam filling (left.length + right.length - 1) rest
          | none => c :: fillFrom seam filling 0 rest

/-- The text with a character in each of its seams. -/
def fill (seam : Seam) (filling : Char) (text : Text) : Text :=
  fillFrom seam filling 0 text

end Seam

end TemplateLint
