import TemplateLint.Json

/-!
# Reading JSON

A reader for the whole grammar.  Each step takes a text and returns what is
left of it; a bound on the number of steps, twice the length of the text,
makes the recursion evident.
-/

namespace TemplateLint.Json

/-- Removes leading white space. -/
def skipBlanks (text : Text) : Text :=
  text.dropWhile fun c => c = ' ' || c = '\t' || c = '\n' || c = '\r'

/-- Four hexadecimal digits. -/
def codeUnit? : Text → Option (Nat × Text)
  | a :: b :: c :: d :: rest => do
      let first ← Text.hexadecimalValue? a
      let second ← Text.hexadecimalValue? b
      let third ← Text.hexadecimalValue? c
      let fourth ← Text.hexadecimalValue? d
      return (((first * 16 + second) * 16 + third) * 16 + fourth, rest)
  | _ => none

/-- What a letter after a backslash stands for. -/
def escaped? : Char → Option Char
  | '"' => some '"'
  | '\\' => some '\\'
  | '/' => some '/'
  | 'b' => some (Char.ofNat 8)
  | 'f' => some (Char.ofNat 12)
  | 'n' => some '\n'
  | 'r' => some '\r'
  | 't' => some '\t'
  | _ => none

/-- The character of one numeric escape, or of two that form a pair. -/
def numbered? (text : Text) : Option (Char × Text) := do
  let (unit, rest) ← codeUnit? text
  if unit < 0xD800 ∨ 0xE000 ≤ unit then return (Char.ofNat unit, rest)
  else
    match rest with
    | '\\' :: 'u' :: more => do
        let (second, left) ← codeUnit? more
        if unit < 0xDC00 ∧ 0xDC00 ≤ second ∧ second < 0xE000 then
          return (Char.ofNat
            (0x10000 + (unit - 0xD800) * 0x400 + (second - 0xDC00)), left)
        else none
    | _ => none

/-- The characters of a string up to its closing quote. -/
def characters? : Nat → Text → Option (Text × Text)
  | 0, _ => none
  | _ + 1, [] => none
  | _ + 1, '"' :: rest => some ([], rest)
  | steps + 1, '\\' :: 'u' :: rest => do
      let (c, left) ← numbered? rest
      let (others, final) ← characters? steps left
      return (c :: others, final)
  | steps + 1, '\\' :: letter :: rest => do
      let c ← escaped? letter
      let (others, final) ← characters? steps rest
      return (c :: others, final)
  | steps + 1, c :: rest => do
      if c = '\\' ∨ c.toNat < 0x20 then none
      let (others, final) ← characters? steps rest
      return (c :: others, final)

/-- One or more digits. -/
def digits? (text : Text) : Option (Text × Text) :=
  let digits := text.takeWhile Char.isDigit
  if digits.isEmpty then none
  else some (digits, text.dropWhile Char.isDigit)

/-- A point and digits, or nothing. -/
def fraction (text : Text) : Text × Text :=
  match text with
  | '.' :: rest =>
      match digits? rest with
      | some (digits, left) => ('.' :: digits, left)
      | none => ([], text)
  | _ => ([], text)

/-- An exponent, or nothing. -/
def exponent (text : Text) : Text × Text :=
  let signed (mark : Char) (rest : Text) : Text × Text :=
    match rest with
    | '-' :: more =>
        match digits? more with
        | some (digits, left) => (mark :: '-' :: digits, left)
        | none => ([], text)
    | '+' :: more =>
        match digits? more with
        | some (digits, left) => (mark :: '+' :: digits, left)
        | none => ([], text)
    | _ =>
        match digits? rest with
        | some (digits, left) => (mark :: digits, left)
        | none => ([], text)
  match text with
  | 'e' :: rest => signed 'e' rest
  | 'E' :: rest => signed 'E' rest
  | _ => ([], text)

/-- A number without its sign. -/
def unsigned? (negative : Bool) (text : Text) : Option (Json × Text) := do
  let (whole, afterWhole) ← digits? text
  let (point, afterPoint) := fraction afterWhole
  let (power, rest) := exponent afterPoint
  if point.isEmpty && power.isEmpty then
    let value : Int := Text.digitsValue whole
    return (integer (if negative then -value else value), rest)
  else
    let literal := whole ++ point ++ power
    return (decimal (if negative then '-' :: literal else literal), rest)

mutual

def value? : Nat → Text → Option (Json × Text)
  | 0, _ => none
  | steps + 1, text =>
      match skipBlanks text with
      | 'n' :: 'u' :: 'l' :: 'l' :: rest => some (null, rest)
      | 't' :: 'r' :: 'u' :: 'e' :: rest => some (bool true, rest)
      | 'f' :: 'a' :: 'l' :: 's' :: 'e' :: rest => some (bool false, rest)
      | '"' :: rest => do
          let (characters, left) ← characters? steps rest
          return (string (String.ofList characters), left)
      | '[' :: rest =>
          match skipBlanks rest with
          | ']' :: left => some (array [], left)
          | _ => do
              let (items, left) ← items? steps rest
              return (array items, left)
      | '\x7b' :: rest =>
          match skipBlanks rest with
          | '\x7d' :: left => some (object [], left)
          | _ => do
              let (members, left) ← members? steps rest
              return (object members, left)
      | '-' :: rest => unsigned? true rest
      | rest => unsigned? false rest

/-- One or more items up to the closing bracket. -/
def items? : Nat → Text → Option (List Json × Text)
  | 0, _ => none
  | steps + 1, text => do
      let (item, rest) ← value? steps text
      match skipBlanks rest with
      | ',' :: more => do
          let (items, left) ← items? steps more
          return (item :: items, left)
      | ']' :: left => return ([item], left)
      | _ => none

/-- One or more members up to the closing brace. -/
def members? : Nat → Text → Option (List (String × Json) × Text)
  | 0, _ => none
  | steps + 1, text =>
      match skipBlanks text with
      | '"' :: rest => do
          let (characters, afterKey) ← characters? steps rest
          match skipBlanks afterKey with
          | ':' :: more => do
              let (value, afterValue) ← value? steps more
              let member := (String.ofList characters, value)
              match skipBlanks afterValue with
              | ',' :: others => do
                  let (members, left) ← members? steps others
                  return (member :: members, left)
              | '\x7d' :: left => return ([member], left)
              | _ => none
          | _ => none
      | _ => none

end

/-- The value of a whole text. -/
def read? (text : Text) : Option Json := do
  let (value, rest) ← value? (2 * text.length + 2) text
  if (skipBlanks rest).isEmpty then return value else none

end TemplateLint.Json
