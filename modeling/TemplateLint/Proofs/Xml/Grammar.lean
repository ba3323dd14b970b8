import TemplateLint.Proofs.Text.Digits
import TemplateLint.Proofs.Text.Lines
import TemplateLint.Xml

/-!
# The grammar of XML

A text spells a document of version 1.0, which is the content of its root:
characters and elements.  Line ends are unified before anything is read, white
space in attributes becomes spaces unless it is written by references, and
comments and instructions are no content.  Documents have no type declaration
here, so that only the five entities are known that need none.
-/

namespace TemplateLint.Xml

/-- What an element holds. -/
inductive Item where
  | character (c : Char)
  | element (name : Text) (attributes : List (Text × Text))
      (content : List Item)

/-! ## Characters -/

/-- The characters that a document may have. -/
def IsLegal (c : Char) : Prop :=
  c ∈ ['\t', '\n', '\r'] ∨ (0x20 ≤ c.toNat ∧ c.toNat ≤ 0xD7FF) ∨
    (0xE000 ≤ c.toNat ∧ c.toNat ≤ 0xFFFD) ∨ 0x10000 ≤ c.toNat

instance : DecidablePred IsLegal :=
  fun c => inferInstanceAs (Decidable (c ∈ ['\t', '\n', '\r'] ∨ _))

def AreLegal (text : Text) : Prop := ∀ c ∈ text, IsLegal c

instance : DecidablePred AreLegal :=
  fun text => List.decidableBAll IsLegal text

def blanks : List Char := [' ', '\t', '\n', '\r']

/-- White space of any length. -/
def IsBlank (text : Text) : Prop := ∀ c ∈ text, c ∈ blanks

/-! ## Names -/

/-- The boundaries of the characters that names begin with. -/
def nameStarts : List Nat := [
  58, 59, 65, 91, 95, 96, 97, 123, 0xC0, 0xD7, 0xD8, 0xF7, 0xF8, 0x300, 0x370,
  0x37E, 0x37F, 0x2000, 0x200C, 0x200E, 0x2070, 0x2190, 0x2C00, 0x2FF0, 0x3001,
  0xD800, 0xF900, 0xFDD0, 0xFDF0, 0xFFFE, 0x10000, 0xF0000]

/-- The boundaries of the characters that names have only behind the first. -/
def nameMiddles : List Nat :=
  [45, 47, 48, 58, 0xB7, 0xB8, 0x300, 0x370, 0x203F, 0x2041]

def startsName (c : Char) : Bool := Character.within nameStarts c.toNat

def continuesName (c : Char) : Bool :=
  startsName c || Character.within nameMiddles c.toNat

/-- A name is not empty. -/
def IsName (name : Text) : Prop :=
  (∃ first ∈ name.head?, startsName first = true) ∧
    ∀ c ∈ name, continuesName c = true

instance : DecidablePred IsName := fun name =>
  decidable_of_iff
    (name.head?.any startsName = true ∧ name.all continuesName = true)
    (and_congr (Option.any_eq_true _ _) List.all_eq_true)

/-! ## References -/

def apostrophe : Char := Char.ofNat 39

/-- The entities that need no declaration. -/
def entities : List (Text × Char) :=
  [("amp", '&'), ("lt", '<'), ("gt", '>'), ("apos", apostrophe),
    ("quot", '"')]

/-- What stands between an ampersand and a semicolon refers to a character. -/
inductive Refers : Text → Char → Prop where
  | decimal {digits : Text} {c : Char} (legal : IsLegal c)
      (number : Text.natural? digits = some c.toNat) : Refers ('#' :: digits) c
  | hexadecimal {digits : Text} {values : List Nat} {c : Char}
      (legal : IsLegal c) (some_digit : digits ≠ [])
      (areDigits : digits.mapM Text.hexadecimalValue? = some values)
      (number : values.foldl (fun value digit => value * 16 + digit) 0 =
        c.toNat) : Refers ('#' :: 'x' :: digits) c
  | entity {name : Text} {c : Char} (known : (name, c) ∈ entities) :
      Refers name c

/-! ## Attributes -/

/-- A character as it stands in the value of an attribute. -/
def inValue (c : Char) : Char := if c ∈ blanks then ' ' else c

/-- The value of an attribute between quotes of one kind. -/
inductive SpellsValue (quote : Char) : Text → Text → Prop where
  | nil : SpellsValue quote [] []
  | character {c : Char} {text value : Text} (legal : IsLegal c)
      (noQuote : c ≠ quote) (noTag : c ≠ '<') (noReference : c ≠ '&')
      (later : SpellsValue quote text value) :
      SpellsValue quote (c :: text) (inValue c :: value)
  | reference {body text value : Text} {c : Char} (refers : Refers body c)
      (later : SpellsValue quote text value) :
      SpellsValue quote ('&' :: (body ++ ';' :: text)) (c :: value)

/-- Attributes one after another, each behind white space. -/
inductive SpellsAttributes : Text → List (Text × Text) → Prop where
  | nil : SpellsAttributes [] []
  | cons {space name front back text value rest : Text} {quote : Char}
      {others : List (Text × Text)} (isSpace : IsBlank space)
      (some_space : space ≠ []) (isName : IsName name)
      (blankFront : IsBlank front) (blankBack : IsBlank back)
      (isQuote : quote ∈ ['"', apostrophe])
      (spells : SpellsValue quote text value)
      (later : SpellsAttributes rest others) :
      SpellsAttributes
        (space ++ (name ++ (front ++ '='
          :: (back ++ quote :: (text ++ quote :: rest)))))
        ((name, value) :: others)

/-! ## Comments and instructions -/

/-- A mark stands behind a text and nowhere before, not even in part over the
end of the text. -/
def FirstBehind (mark inner : Text) : Prop :=
  ∀ front rest, inner ++ mark = front ++ (mark ++ rest) → rest = []

/-- Comments and instructions.  Two hyphens in a comment are its end, and the
name `xml` in any case is no target of an instruction. -/
inductive IsRemark : Text → Prop where
  | comment {inner : Text} (legal : AreLegal inner)
      (first : FirstBehind ['-', '-'] inner) :
      IsRemark ('<' :: '!' :: '-' :: '-' :: (inner ++ ['-', '-', '>']))
  | instruction {target data : Text} (isName : IsName target)
      (notReserved : target.map Char.toLower ≠ ['x', 'm', 'l'])
      (apart : Text.FirstIs (· ∈ blanks) data) (legal : AreLegal data)
      (first : FirstBehind ['?', '>'] data) :
      IsRemark ('<' :: '?' :: (target ++ (data ++ ['?', '>'])))

/-! ## Elements -/

mutual

/-- An element of which no two attributes have one name, closed in its own tag
or by a tag of the same name. -/
inductive SpellsElement : Text → Item → Prop where
  | empty {name text space : Text} {attributes : List (Text × Text)}
      (isName : IsName name) (spells : SpellsAttributes text attributes)
      (distinct : (attributes.map (·.1)).Nodup) (blank : IsBlank space) :
      SpellsElement ('<' :: (name ++ (text ++ (space ++ ['/', '>']))))
        (.element name attributes [])
  | filled {name text space inner spaceBehind : Text}
      {attributes : List (Text × Text)} {content : List Item}
      (isName : IsName name) (spells : SpellsAttributes text attributes)
      (distinct : (attributes.map (·.1)).Nodup) (blank : IsBlank space)
      (spellsContent : SpellsContent inner content)
      (blankBehind : IsBlank spaceBehind) :
      SpellsElement
        ('<' :: (name ++ (text ++ (space ++ '>'
          :: (inner ++ '<' :: '/' :: (name ++ (spaceBehind ++ ['>'])))))))
        (.element name attributes content)

/-- The content of an element.  Characters stand for themselves, for what they
refer to, or verbatim in a section. -/
inductive SpellsContent : Text → List Item → Prop where
  | nil : SpellsContent [] []
  | character {c : Char} {text : Text} {items : List Item} (legal : IsLegal c)
      (noTag : c ≠ '<') (noReference : c ≠ '&')
      (noSection : ¬[']', ']', '>'] <+: c :: text)
      (later : SpellsContent text items) :
      SpellsContent (c :: text) (.character c :: items)
  | reference {body text : Text} {c : Char} {items : List Item}
      (refers : Refers body c) (later : SpellsContent text items) :
      SpellsContent ('&' :: (body ++ ';' :: text)) (.character c :: items)
  | verbatim {inner text : Text} {items : List Item} (legal : AreLegal inner)
      (first : FirstBehind [']', ']', '>'] inner)
      (later : SpellsContent text items) :
      SpellsContent
        ('<' :: '!' :: '[' :: 'C' :: 'D' :: 'A' :: 'T' :: 'A' :: '['
          :: (inner ++ ']' :: ']' :: '>' :: text))
        (inner.map .character ++ items)
  | remark {remark text : Text} {items : List Item} (isRemark : IsRemark remark)
      (later : SpellsContent text items) : SpellsContent (remark ++ text) items
  | element {front text : Text} {item : Item} {items : List Item}
      (spells : SpellsElement front item) (later : SpellsContent text items) :
      SpellsContent (front ++ text) (item :: items)

end

/-! ## Documents -/

/-- White space, comments and instructions. -/
inductive IsMisc : Text → Prop where
  | nil : IsMisc []
  | blank {c : Char} {text : Text} (isBlank : c ∈ blanks)
      (later : IsMisc text) : IsMisc (c :: text)
  | remark {remark text : Text} (isRemark : IsRemark remark)
      (later : IsMisc text) : IsMisc (remark ++ text)

def isEncodingName (name : Text) : Bool :=
  name.head?.any Char.isAlpha &&
    name.all fun c => c.isAlphanum || ['.', '_', '-'].contains c

/-- Whether the last part of a declaration says that the document stands alone
or not, or is missing. -/
def isAlone : List (Text × Text) → Bool
  | [] => true
  | [(key, answer)] =>
      key = "standalone" && (answer = "yes" || answer = "no")
  | _ => false

/-- Whether a declaration has the version, perhaps the encoding, and perhaps
whether the document stands alone, in this order. -/
def isVersion : List (Text × Text) → Bool
  | (key, '1' :: '.' :: digits) :: others =>
      key = "version" && !digits.isEmpty && digits.all Char.isDigit &&
        match others with
        | (second, name) :: parts =>
            if second = "encoding" then isEncodingName name && isAlone parts
            else isAlone others
        | [] => true
  | _ => false

/-- The declaration of a document, if it has one. -/
inductive IsDeclaration : Text → Prop where
  | absent : IsDeclaration []
  | present {text space : Text} {parts : List (Text × Text)}
      (spells : SpellsAttributes text parts) (noReference : '&' ∉ text)
      (versioned : isVersion parts = true) (blank : IsBlank space) :
      IsDeclaration
        ('<' :: '?' :: 'x' :: 'm' :: 'l' :: (text ++ (space ++ ['?', '>'])))

/-- A text with unified line ends is a document with this root. -/
def IsUnified (text : Text) (root : Item) : Prop :=
  ∃ declaration front element behind,
    text = declaration ++ (front ++ (element ++ behind)) ∧
      IsDeclaration declaration ∧ IsMisc front ∧ SpellsElement element root ∧
      IsMisc behind

/-- A text is a well-formed document with this root. -/
def IsDocument (text : Text) (root : Item) : Prop :=
  IsUnified text.universalNewlines root

end TemplateLint.Xml
