import TemplateLint.Toml.Problem

/-!
# Blanks, strings and keys of TOML documents

Strings come in four forms: between single or double quotes, on one line or on
several.  Only double quotes allow escapes.
-/

namespace TemplateLint.Toml

def isSpace (c : Char) : Bool := c = ' ' || c = '\t'

def isSpaceOrNewline (c : Char) : Bool := isSpace c || c = '\n'

def skipSpaces (text : Text) : Text := text.dropWhile isSpace

/-- Control characters other than the tab. -/
def isControl (c : Char) : Bool := (c.toNat < 32 || c.toNat = 127) && c ≠ '\t'

/-- Control characters other than those that structure several lines. -/
def isControlInLines (c : Char) : Bool := isControl c && c ≠ '\n'

/-- Stops at the first character of `checked` that is not allowed; `after` is
the text behind it. -/
def refuse (isRefused : Char → Bool) (checked after : Text) :
    Except Failure Unit :=
  match checked.dropWhile (!isRefused ·) with
  | [] => .ok ()
  | c :: rest => stop (.invalidCharacter c) (c :: rest ++ after)

/-- Skips a comment up to the end of its line. -/
def skipComment (text : Text) : Except Failure Text :=
  match text with
  | '#' :: rest => do
      let after := rest.dropWhile (· ≠ '\n')
      refuse isControl (rest.takeWhile (· ≠ '\n')) after
      return after
  | _ => return text

/-- The text before the first occurrence of a delimiter, and after it. -/
def splitAt? (delimiter : Text) : Text → Option (Text × Text)
  | [] => if delimiter.isEmpty then some ([], []) else none
  | c :: rest =>
      if delimiter.isPrefixOf (c :: rest) then
        some ([], (c :: rest).drop delimiter.length)
      else (splitAt? delimiter rest).map fun parts => (c :: parts.1, parts.2)

/-- A string without escapes up to its delimiter. -/
def literalUpTo (delimiter : Text) (isRefused : Char → Bool) (text : Text) :
    Except Failure (Parsed Text) :=
  match splitAt? delimiter text with
  | none => stop (.missingDelimiter delimiter) []
  | some (content, rest) => do
      refuse isRefused content (delimiter ++ rest)
      return (content, rest)

/-- The character of a numeric escape with the given number of digits. -/
def numericEscape (width : Nat) (text : Text) : Except Failure (Parsed Text) :=
  let digits := text.take width
  match digits.mapM Text.hexadecimalValue? with
  | none => stop .invalidHexadecimal text
  | some values =>
      if values.length ≠ width then stop .invalidHexadecimal text
      else
        let code := values.foldl (fun value digit => value * 16 + digit) 0
        let rest := text.drop width
        if code < 0xD800 ∨ (0xE000 ≤ code ∧ code < 0x110000) then
          .ok ([Char.ofNat code], rest)
        else stop .notScalarValue rest

/-- A backslash before the end of a line joins the line to the next text. -/
def lineContinuation (text : Text) : Except Failure (Parsed Text) :=
  match skipSpaces text with
  | [] => .ok ([], [])
  | '\n' :: rest => .ok ([], rest.dropWhile isSpaceOrNewline)
  | rest => stop .unescapedBackslash rest

/-- What an escape stands for, from the text after the backslash. -/
def escape (multiline : Bool) : Text → Except Failure (Parsed Text)
  | 'b' :: rest => .ok ([Char.ofNat 8], rest)
  | 't' :: rest => .ok (['\t'], rest)
  | 'n' :: rest => .ok (['\n'], rest)
  | 'f' :: rest => .ok ([Char.ofNat 12], rest)
  | 'r' :: rest => .ok (['\r'], rest)
  | '"' :: rest => .ok (['"'], rest)
  | '\\' :: rest => .ok (['\\'], rest)
  | 'u' :: rest => numericEscape 4 rest
  | 'U' :: rest => numericEscape 8 rest
  | c :: rest =>
      if multiline && isSpaceOrNewline c then lineContinuation (c :: rest)
      else stop .unescapedBackslash rest
  | [] => stop .unescapedBackslash []

/-- A string with escapes up to its closing quotes.  The number of steps is
bounded by the length of the text. -/
def escapedUpTo (multiline : Bool) : Nat → Text → Except Failure (Parsed Text)
  | 0, text => stop .unterminatedString text
  | _, [] => stop .unterminatedString []
  | steps + 1, '"' :: rest =>
      if !multiline then .ok ([], rest)
      else
        match rest with
        | '"' :: '"' :: after => .ok ([], after)
        | _ => do
            let (others, after) ← escapedUpTo multiline steps rest
            return ('"' :: others, after)
  | steps + 1, '\\' :: rest => do
      let (content, left) ← escape multiline rest
      let (others, after) ← escapedUpTo multiline steps left
      return (content ++ others, after)
  | steps + 1, c :: rest =>
      if (if multiline then isControlInLines c else isControl c) then
        stop (.illegalCharacter c) (c :: rest)
      else do
        let (others, after) ← escapedUpTo multiline steps rest
        return (c :: others, after)

/-- Up to two quotes right after the closing ones belong to the string. -/
def extraQuotes (quote : Char) (content rest : Text) : Text × Text :=
  match rest with
  | first :: second :: after =>
      if first = quote ∧ second = quote then (content ++ [quote, quote], after)
      else if first = quote then (content ++ [quote], second :: after)
      else (content, rest)
  | [only] => if only = quote then (content ++ [quote], []) else (content, rest)
  | [] => (content, [])

/-- A newline right after the opening quotes is dropped. -/
def withoutFirstNewline : Text → Text
  | '\n' :: rest => rest
  | text => text

/-- A string on one line, from its opening quote on. -/
def lineString? : Text → Option (Except Failure (Parsed Text))
  | '\'' :: rest => some (literalUpTo ['\''] isControl rest)
  | '"' :: rest => some (escapedUpTo false (rest.length + 1) rest)
  | _ => none

/-- A string of any form, from its opening quotes on. -/
def string? : Text → Option (Except Failure (Parsed Text))
  | '\'' :: '\'' :: '\'' :: rest => some do
      let (content, after) ← literalUpTo ['\'', '\'', '\''] isControlInLines
        (withoutFirstNewline rest)
      return extraQuotes '\'' content after
  | '"' :: '"' :: '"' :: rest => some do
      let body := withoutFirstNewline rest
      let (content, after) ← escapedUpTo true (body.length + 1) body
      return extraQuotes '"' content after
  | text => lineString? text

/-- Characters of keys without quotes. -/
def isBareKey (c : Char) : Bool := c.isAlphanum || c = '-' || c = '_'

/-- Characters that begin a key. -/
def startsKey (c : Char) : Bool := isBareKey c || c = '"' || c = '\''

def keyPart (text : Text) : Except Failure (Parsed String) :=
  match lineString? text with
  | some reading => reading.map fun parsed => (String.ofList parsed.1, parsed.2)
  | none =>
      let bare := text.takeWhile isBareKey
      if bare.isEmpty then stop .invalidKeyStart text
      else .ok (String.ofList bare, text.dropWhile isBareKey)

/-- The parts of a key after its first one, and the text behind them. -/
def keyParts : Nat → Text → Except Failure (Parsed Key)
  | 0, text => .ok ([], text)
  | steps + 1, '.' :: rest => do
      let (part, left) ← keyPart (skipSpaces rest)
      let (others, after) ← keyParts steps (skipSpaces left)
      return (part :: others, after)
  | _, text => .ok ([], text)

/-- A dotted key with the spaces after it. -/
def key (text : Text) : Except Failure (Parsed Key) := do
  let (part, left) ← keyPart text
  let (others, after) ← keyParts text.length (skipSpaces left)
  return (part :: others, after)

end TemplateLint.Toml
