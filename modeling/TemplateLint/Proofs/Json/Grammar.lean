import TemplateLint.Json

/-!
# The grammar of JSON

A text spells a value.  Blanks may stand around every value, key and comma; a
character of a string stands for itself or is written as an escape; a number
has no zero in front of other digits.
-/

namespace TemplateLint.Json

/-! ## Blanks -/

/-- The white space of the grammar. -/
def IsBlank (text : Text) : Prop :=
  ∀ c ∈ text, c ∈ [' ', '\t', '\n', '\r']

/-- A text with blanks around it. -/
inductive Padded (text : Text) : Text → Prop where
  | around {front back : Text} (blankFront : IsBlank front)
      (blankBack : IsBlank back) : Padded text (front ++ (text ++ back))

/-! ## Strings -/

/-- Four hexadecimal digits with their value. -/
inductive SpellsUnit : Text → Nat → Prop where
  | digits {a b c d : Char} {first second third fourth : Nat}
      (isFirst : Text.hexadecimalValue? a = some first)
      (isSecond : Text.hexadecimalValue? b = some second)
      (isThird : Text.hexadecimalValue? c = some third)
      (isFourth : Text.hexadecimalValue? d = some fourth) :
      SpellsUnit [a, b, c, d]
        (((first * 16 + second) * 16 + third) * 16 + fourth)

/-- The letters behind a backslash, and what they stand for. -/
def letters : List (Char × Char) :=
  [('"', '"'), ('\\', '\\'), ('/', '/'), ('b', Char.ofNat 8),
    ('f', Char.ofNat 12), ('n', '\n'), ('r', '\r'), ('t', '\t')]

/-- One character of a string. -/
inductive SpellsCharacter : Text → Char → Prop where
  | itself {c : Char} (noQuote : c ≠ '"') (noBackslash : c ≠ '\\')
      (noControl : 0x20 ≤ c.toNat) : SpellsCharacter [c] c
  | letter {letter c : Char} (known : (letter, c) ∈ letters) :
      SpellsCharacter ['\\', letter] c
  | unit {digits : Text} {c : Char} (spells : SpellsUnit digits c.toNat) :
      SpellsCharacter ('\\' :: 'u' :: digits) c
  | pair {high low : Text} {upper lower : Nat} {c : Char}
      (spellsHigh : SpellsUnit high (0xD800 + upper)) (upperFits : upper < 0x400)
      (spellsLow : SpellsUnit low (0xDC00 + lower)) (lowerFits : lower < 0x400)
      (code : c.toNat = 0x10000 + upper * 0x400 + lower) :
      SpellsCharacter ('\\' :: 'u' :: high ++ '\\' :: 'u' :: low) c

inductive SpellsCharacters : Text → Text → Prop where
  | nil : SpellsCharacters [] []
  | cons {text rest : Text} {c : Char} {others : Text}
      (first : SpellsCharacter text c) (later : SpellsCharacters rest others) :
      SpellsCharacters (text ++ rest) (c :: others)

/-- The characters of a string between quotes. -/
inductive SpellsString : Text → String → Prop where
  | quoted {text : Text} {value : String}
      (spells : SpellsCharacters text value.toList) :
      SpellsString ('"' :: (text ++ ['"'])) value

/-! ## Numbers -/

def AreDigits (digits : Text) : Prop :=
  digits ≠ [] ∧ ∀ c ∈ digits, c.isDigit = true

/-- Digits without a zero in front of others. -/
def IsWhole (digits : Text) : Prop :=
  AreDigits digits ∧ (digits.head? = some '0' → digits = ['0'])

/-- A point and digits, or nothing. -/
inductive IsPoint : Text → Prop where
  | none : IsPoint []
  | some {digits : Text} (areDigits : AreDigits digits) : IsPoint ('.' :: digits)

/-- An exponent with or without a sign, or nothing. -/
inductive IsPower : Text → Prop where
  | none : IsPower []
  | some {mark : Char} {sign digits : Text} (isMark : mark ∈ ['e', 'E'])
      (isSign : sign ∈ [[], ['+'], ['-']]) (areDigits : AreDigits digits) :
      IsPower (mark :: (sign ++ digits))

/-- A number.  It is a whole number if it has neither a point nor an exponent. -/
inductive SpellsNumber : Text → Json → Prop where
  | natural {digits : Text} (isWhole : IsWhole digits) :
      SpellsNumber digits (.integer (Text.digitsValue digits))
  | negative {digits : Text} (isWhole : IsWhole digits) :
      SpellsNumber ('-' :: digits) (.integer (-Text.digitsValue digits))
  | decimal {sign whole point power : Text} (isSign : sign ∈ [[], ['-']])
      (isWhole : IsWhole whole) (isPoint : IsPoint point)
      (isPower : IsPower power) (isDecimal : point ++ power ≠ []) :
      SpellsNumber (sign ++ (whole ++ (point ++ power)))
        (.decimal (sign ++ (whole ++ (point ++ power))))

/-! ## Values -/

mutual

inductive Spells : Text → Json → Prop where
  | null : Spells ['n', 'u', 'l', 'l'] .null
  | true : Spells ['t', 'r', 'u', 'e'] (.bool true)
  | false : Spells ['f', 'a', 'l', 's', 'e'] (.bool false)
  | number {text : Text} {value : Json} (spells : SpellsNumber text value) :
      Spells text value
  | string {text : Text} {value : String} (spells : SpellsString text value) :
      Spells text (.string value)
  | emptyArray {text : Text} (blank : IsBlank text) :
      Spells ('[' :: (text ++ [']'])) (.array [])
  | array {text : Text} {items : List Json} (spells : SpellsItems text items) :
      Spells ('[' :: (text ++ [']'])) (.array items)
  | emptyObject {text : Text} (blank : IsBlank text) :
      Spells ('\x7b' :: (text ++ ['\x7d'])) (.object [])
  | object {text : Text} {members : List (String × Json)}
      (spells : SpellsMembers text members) :
      Spells ('\x7b' :: (text ++ ['\x7d'])) (.object members)

/-- One or more items with commas between them. -/
inductive SpellsItems : Text → List Json → Prop where
  | last {text padded : Text} {item : Json} (spells : Spells text item)
      (around : Padded text padded) : SpellsItems padded [item]
  | more {text padded rest : Text} {item : Json} {others : List Json}
      (spells : Spells text item) (around : Padded text padded)
      (later : SpellsItems rest others) :
      SpellsItems (padded ++ ',' :: rest) (item :: others)

/-- A key and its value. -/
inductive SpellsMember : Text → String × Json → Prop where
  | pair {text padded textBehind paddedBehind : Text} {key : String}
      {value : Json} (spellsKey : SpellsString text key)
      (around : Padded text padded) (spells : Spells textBehind value)
      (aroundBehind : Padded textBehind paddedBehind) :
      SpellsMember (padded ++ ':' :: paddedBehind) (key, value)

/-- One or more members with commas between them. -/
inductive SpellsMembers : Text → List (String × Json) → Prop where
  | last {text : Text} {member : String × Json}
      (spells : SpellsMember text member) : SpellsMembers text [member]
  | more {text rest : Text} {member : String × Json}
      {others : List (String × Json)} (spells : SpellsMember text member)
      (later : SpellsMembers rest others) :
      SpellsMembers (text ++ ',' :: rest) (member :: others)

end

/-- A whole text for a value. -/
def IsText (text : Text) (value : Json) : Prop :=
  ∃ inner, Spells inner value ∧ Padded inner text

end TemplateLint.Json
