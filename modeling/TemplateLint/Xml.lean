import TemplateLint.Text

/-!
# XML elements

An element has attributes and holds either a text or further elements, which
are printed on lines of their own, indented by two spaces.  An element that
holds nothing is closed in its own tag.
-/

namespace TemplateLint

inductive Xml where
  | leaf (name : Text) (attributes : List (Text × Text)) (content : Text)
  | node (name : Text) (attributes : List (Text × Text)) (children : List Xml)

namespace Xml

/-- A character of a text. -/
def escapeInText (c : Char) : Text :=
  if c = '&' then "&amp;"
  else if c = '<' then "&lt;"
  else if c = '>' then "&gt;"
  else [c]

/-- A character of an attribute, where quotes and line structure are escaped
too. -/
def escapeInAttribute (c : Char) : Text :=
  if c = '"' then "&quot;"
  else if c = '\n' then "&#10;"
  else if c = '\r' then "&#13;"
  else if c = '\t' then "&#09;"
  else escapeInText c

def assignment (pair : Text × Text) : Text :=
  ' ' :: pair.1 ++ ['=', '"']
    ++ pair.2.flatMap escapeInAttribute ++ ['"']

/-- The start of a tag, up to its closing bracket. -/
def opening (name : Text) (attributes : List (Text × Text)) : Text :=
  '<' :: name ++ attributes.flatMap assignment

def closing (name : Text) : Text := ['<', '/'] ++ name ++ ['>']

/-- A new line at a level of indentation. -/
def newLine (depth : Nat) : Text := '\n' :: List.replicate (2 * depth) ' '

mutual

def print (depth : Nat) : Xml → Text
  | leaf name attributes [] => opening name attributes ++ " />"
  | leaf name attributes content =>
      opening name attributes ++ ['>'] ++ content.flatMap escapeInText
        ++ closing name
  | node name attributes [] => opening name attributes ++ " />"
  | node name attributes children =>
      opening name attributes ++ ['>'] ++ printChildren (depth + 1) children
        ++ newLine depth ++ closing name

def printChildren (depth : Nat) : List Xml → Text
  | [] => []
  | child :: later =>
      newLine depth ++ print depth child ++ printChildren depth later

end

/-- A document with its declaration. -/
def document (root : Xml) : Text :=
  "<?xml version=\"1.0\" encoding=\"UTF-8\"?>\n" ++ print 0 root

end Xml

end TemplateLint
