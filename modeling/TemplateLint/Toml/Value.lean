import TemplateLint.Toml.Key
import TemplateLint.Toml.Scalar

/-!
# Values of TOML documents

Arrays and inline tables hold further values.  The number of nested steps is
bounded by the length of the text.  Keys of an inline table may be dotted, but
must not reach into a value that is complete.
-/

namespace TemplateLint.Toml

/-- Changes the entries that a key leads to, creating tables on the way.  A
list of tables is entered at its last table where that is allowed. -/
def updateNest (throughLists : Bool) (change : Entries → Except Problem Entries) :
    Key → Entries → Except Problem Entries
  | [], entries => change entries
  | part :: rest, entries =>
      match entries.named? part with
      | none => do
          let nested ← updateNest throughLists change rest []
          return entries.put (.text part) (.table nested)
      | some (.table nested) => do
          let changed ← updateNest throughLists change rest nested
          return entries.put (.text part) (.table changed)
      | some (.list items) =>
          match throughLists, items.getLast? with
          | true, some (.table nested) => do
              let changed ← updateNest throughLists change rest nested
              return entries.put (.text part)
                (.list (items.dropLast ++ [.table changed]))
          | _, _ => .error .overwritten
      | some _ => .error .overwritten

/-- Adds an entry that must not exist yet. -/
def addEntry (name : String) (value : Value) (taken : Problem)
    (entries : Entries) : Except Problem Entries :=
  match entries.named? name with
  | some _ => .error taken
  | none => .ok (entries.put (.text name) value)

/-- Whether a key lies at or below one of several keys. -/
def isBelow (frozen : List Key) (key : Key) : Bool :=
  frozen.any (·.isPrefixOf key)

def isContainer : Value → Bool
  | .table _ | .list _ => true
  | _ => false

/-- Reports a problem with a pair that has just been read. -/
def afterPair (rest : Text) : Except Problem α → Except Failure α
  | .ok value => .ok value
  | .error problem => stop problem rest

/-- Adds a pair to the entries of an inline table. -/
def addInline (entries : Entries) (frozen : List Key) (key : Key)
    (value : Value) : Except Problem Entries :=
  if isBelow frozen key then .error (.immutable key)
  else
    let name := key.getLast?.getD ""
    updateNest false (addEntry name value (.duplicateKey name)) key.dropLast
      entries

/-- Skips spaces, newlines and comments between the items of an array. -/
def skipBetweenItems : Nat → Text → Except Failure Text
  | 0, text => .ok text
  | steps + 1, text =>
      match text.dropWhile isSpaceOrNewline with
      | '#' :: rest => do
          let after ← skipComment ('#' :: rest)
          skipBetweenItems steps after
      | rest => .ok rest

def skipBetween (text : Text) : Except Failure Text :=
  skipBetweenItems (text.length + 1) text

/-- A value without parts. -/
def scalar (document : Nat) (text : Text) : Except Failure (Parsed Value) :=
  match string? text with
  | some reading =>
      reading.map fun parsed => (.text (String.ofList parsed.1), parsed.2)
  | none =>
      match text with
      | 't' :: 'r' :: 'u' :: 'e' :: rest => .ok (.bool true, rest)
      | 'f' :: 'a' :: 'l' :: 's' :: 'e' :: rest => .ok (.bool false, rest)
      | _ =>
          match dateOrMoment? text with
          | some reading => reading
          | none =>
              match time? text with
              | some (time, rest) => .ok (.time time, rest)
              | none =>
                  match number? text with
                  | some reading => reading
                  | none =>
                      match specialNumber? document text with
                      | some result => .ok result
                      | none => stop .invalidValue text

mutual

def value (document : Nat) : Nat → Text → Except Failure (Parsed Value)
  | 0, text => stop .invalidValue text
  | steps + 1, '[' :: rest => do
      let start ← skipBetween rest
      let (items, after) ← arrayItems document steps start
      return (.list items, after)
  | steps + 1, '\x7b' :: rest =>
      match skipSpaces rest with
      | '\x7d' :: after => .ok (.table [], after)
      | start => do
          let (entries, after) ← inlinePairs document steps [] [] start
          return (.table entries, after)
  | _ + 1, text => scalar document text

/-- The items of an array up to its closing bracket. -/
def arrayItems (document : Nat) : Nat → Text → Except Failure (Parsed (List Value))
  | 0, text => stop .unclosedArray text
  | _ + 1, ']' :: after => .ok ([], after)
  | steps + 1, text => do
      let (item, afterItem) ← value document steps text
      let next ← skipBetween afterItem
      match next with
      | ']' :: after => return ([item], after)
      | ',' :: rest => do
          let start ← skipBetween rest
          let (items, after) ← arrayItems document steps start
          return (item :: items, after)
      | _ => stop .unclosedArray next

/-- The pairs of an inline table up to its closing brace. -/
def inlinePairs (document : Nat) :
    Nat → Entries → List Key → Text → Except Failure (Parsed Entries)
  | 0, _, _, text => stop .unclosedTable text
  | steps + 1, entries, frozen, text => do
      let ((key, value), afterPairText) ← pair document steps text
      let more ← afterPair afterPairText (addInline entries frozen key value)
      let next := skipSpaces afterPairText
      match next with
      | '\x7d' :: after => return (more, after)
      | ',' :: rest =>
          inlinePairs document steps more
            (if isContainer value then key :: frozen else frozen)
            (skipSpaces rest)
      | _ => stop .unclosedTable next

/-- A key and its value around an equals sign. -/
def pair (document : Nat) : Nat → Text → Except Failure (Parsed (Key × Value))
  | 0, text => stop .invalidKeyStart text
  | steps + 1, text => do
      let (parts, afterKey) ← key text
      match afterKey with
      | '=' :: rest => do
          let (content, after) ← value document steps (skipSpaces rest)
          return ((parts, content), after)
      | _ => stop .missingEquals afterKey

end

end TemplateLint.Toml
