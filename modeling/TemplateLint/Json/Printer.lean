import TemplateLint.Json

/-!
# Printing JSON

Strings escape the quote, the backslash and control characters, and show all
other characters as they are.  Values are printed on one line or indented; an
empty array or object is short in both forms.
-/

namespace TemplateLint.Json

/-- One character inside a string. -/
def escapeChar (c : Char) : Text :=
  if c = '"' then ['\\', '"']
  else if c = '\\' then ['\\', '\\']
  else if c = '\n' then ['\\', 'n']
  else if c = '\t' then ['\\', 't']
  else if c = '\r' then ['\\', 'r']
  else if c.toNat = 8 then ['\\', 'b']
  else if c.toNat = 12 then ['\\', 'f']
  else if c.toNat < 0x20 then '\\' :: 'u' :: Text.hexadecimal 4 c.toNat
  else [c]

def quote (text : Text) : Text := '"' :: text.flatMap escapeChar ++ ['"']

/-- What stands between the parts of an array or object. -/
structure Layout where
  afterOpen : Nat → Text
  betweenItems : Nat → Text
  beforeClose : Nat → Text
  afterKey : Text

/-- Everything on one line, without spaces. -/
def Layout.compact : Layout :=
  ⟨fun _ => [], fun _ => [','], fun _ => [], [':']⟩

/-- A new line, indented by two spaces for each level. -/
def indentedLine (depth : Nat) : Text := '\n' :: List.replicate (2 * depth) ' '

/-- Every item on a line of its own. -/
def Layout.indented : Layout :=
  ⟨fun depth => indentedLine (depth + 1),
    fun depth => ',' :: indentedLine (depth + 1), indentedLine, [':', ' ']⟩

mutual

def print (layout : Layout) (depth : Nat) : Json → Text
  | null => "null"
  | bool true => "true"
  | bool false => "false"
  | integer value => Text.ofInt value
  | decimal literal => literal
  | string value => quote value.toList
  | array [] => ['[', ']']
  | array (first :: others) =>
      '[' :: layout.afterOpen depth
        ++ print layout (depth + 1) first
        ++ printItems layout depth others
        ++ layout.beforeClose depth ++ [']']
  | object [] => ['\x7b', '\x7d']
  | object ((key, first) :: others) =>
      '\x7b' :: layout.afterOpen depth
        ++ quote key.toList ++ layout.afterKey
        ++ print layout (depth + 1) first
        ++ printMembers layout depth others
        ++ layout.beforeClose depth ++ ['\x7d']

/-- The items after the first one. -/
def printItems (layout : Layout) (depth : Nat) : List Json → Text
  | [] => []
  | item :: others =>
      layout.betweenItems depth ++ print layout (depth + 1) item
        ++ printItems layout depth others

/-- The members after the first one. -/
def printMembers (layout : Layout) (depth : Nat) :
    List (String × Json) → Text
  | [] => []
  | (key, value) :: others =>
      layout.betweenItems depth ++ quote key.toList ++ layout.afterKey
        ++ print layout (depth + 1) value
        ++ printMembers layout depth others

end

def compact (value : Json) : Text := print .compact 0 value

def indented (value : Json) : Text := print .indented 0 value

end TemplateLint.Json
