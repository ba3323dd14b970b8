import TemplateLint.Text

/-!
# Brace alternatives

A group of alternatives stands in braces with commas between them.  Expansion
takes the leftmost group without braces inside, puts each alternative in its
place and goes on; every step removes one opening brace, so their number
bounds the steps.
-/

namespace TemplateLint.Braces

def isBrace (c : Char) : Bool := c = '\x7b' || c = '\x7d'

/-- A group by the text before, inside and after its braces. -/
structure Group where
  before : Text
  inside : Text
  after : Text
  deriving DecidableEq

/-- The inside of a group without further braces, and the text after it. -/
def inside? (text : Text) : Option (Text × Text) :=
  match text.dropWhile (!isBrace ·) with
  | '\x7d' :: after => some (text.takeWhile (!isBrace ·), after)
  | _ => none

/-- The leftmost group without braces inside. -/
def group? : Text → Option Group
  | [] => none
  | c :: rest =>
      match if c = '\x7b' then inside? rest else none with
      | some (inside, after) => some ⟨[], inside, after⟩
      | none => (group? rest).map fun group =>
          { group with before := c :: group.before }

/-- The texts that each choice of alternatives in a group leaves. -/
def Group.choices (group : Group) : List Text :=
  (group.inside.parts ',').map fun choice =>
    group.before ++ choice ++ group.after

def expandSteps : Nat → Text → List Text
  | 0, pattern => [pattern]
  | steps + 1, pattern =>
      match group? pattern with
      | none => [pattern]
      | some group => group.choices.flatMap (expandSteps steps)

/-- The patterns without groups that a pattern stands for. -/
def expand (pattern : Text) : List Text :=
  expandSteps (pattern.count '\x7b') pattern

end TemplateLint.Braces
