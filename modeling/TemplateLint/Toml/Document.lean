import TemplateLint.Toml.Value

/-!
# TOML documents

A document is a sequence of statements: pairs, table headers and headers of
lists of tables.  Beside the entries it keeps which namespaces were declared
by a header, which are complete values, and which were opened by dotted keys
since the last header.
-/

namespace TemplateLint.Toml

structure Document where
  entries : Entries
  /-- Namespaces that no header may declare again. -/
  declared : List Key
  /-- Values that nothing may be added to. -/
  frozen : List Key
  /-- Namespaces of dotted keys, which count as declared after the next
  header. -/
  opened : List Key
  /-- The namespace of the statements that follow. -/
  header : Key

namespace Document

def empty : Document := ⟨[], [], [], [], []⟩

/-- A header closes the namespaces that dotted keys have opened. -/
def closeOpened (document : Document) : Document :=
  { document with
    declared := document.declared ++ document.opened, opened := [] }

/-- Forgets what is known of a namespace and those below it. -/
def forget (document : Document) (key : Key) : Document :=
  { document with
    declared := document.declared.filter (!key.isPrefixOf ·)
    frozen := document.frozen.filter (!key.isPrefixOf ·) }

/-- Declares a table and makes it the namespace of what follows. -/
def declareTable (document : Document) (key : Key) : Except Problem Document := do
  if document.declared.contains key || isBelow document.frozen key then
    .error (.declaredTwice key)
  let entries ← updateNest true .ok key document.entries
  return { document with
    entries, declared := document.declared ++ [key], header := key }

/-- Continues a list of tables, or begins one. -/
def appendTable (name : String) (entries : Entries) : Except Problem Entries :=
  match entries.named? name with
  | none => .ok (entries.put (.text name) (.list [.table []]))
  | some (.list items) =>
      .ok (entries.put (.text name) (.list (items ++ [.table []])))
  | some _ => .error .overwritten

/-- Opens the next table of a list of tables. -/
def declareListItem (document : Document) (key : Key) :
    Except Problem Document := do
  if isBelow document.frozen key then .error (.immutable key)
  let forgotten := document.forget key
  let entries ← updateNest true (appendTable (key.getLast?.getD ""))
    key.dropLast document.entries
  return { forgotten with
    entries, declared := forgotten.declared ++ [key], header := key }

/-- Namespaces from the first part of a dotted key to the last but one. -/
def openedBy (header key : Key) : List Key :=
  (List.range (key.length - 1)).map fun index => header ++ key.take (index + 1)

/-- Adds a pair to the current namespace. -/
def addPair (document : Document) (key : Key) (value : Value) :
    Except Problem Document := do
  let opened := openedBy document.header key
  match opened.find? document.declared.contains with
  | some declared => .error (.redefined declared)
  | none =>
      let parent := document.header ++ key.dropLast
      if !parent.isEmpty && isBelow document.frozen parent then
        .error (.immutable parent)
      let entries ← updateNest true
        (addEntry (key.getLast?.getD "") value .overwritten) parent
        document.entries
      return { document with
        entries
        opened := document.opened ++ opened
        frozen := if isContainer value then
            document.frozen ++ [document.header ++ key]
          else document.frozen }

/-- A table header, from the text after its bracket. -/
def tableHeader (document : Document) (text : Text) :
    Except Failure (Parsed Document) := do
  let (parts, rest) ← key (skipSpaces text)
  let changed ← afterPair rest (document.closeOpened.declareTable parts)
  match rest with
  | ']' :: after => return (changed, after)
  | _ => stop .missingBracket rest

/-- A header of a list of tables, from the text after its brackets. -/
def listHeader (document : Document) (text : Text) :
    Except Failure (Parsed Document) := do
  let (parts, rest) ← key (skipSpaces text)
  let changed ← afterPair rest (document.closeOpened.declareListItem parts)
  match rest with
  | ']' :: ']' :: after => return (changed, after)
  | _ => stop .missingBrackets rest

/-- One statement, from its first character on. -/
def statement (number : Nat) (document : Document) (text : Text) :
    Except Failure (Parsed Document) :=
  match text with
  | '[' :: '[' :: rest => document.listHeader rest
  | '[' :: rest => document.tableHeader rest
  | '#' :: _ => .ok (document, text)
  | c :: _ =>
      if startsKey c then do
        let ((parts, content), rest) ← pair number (2 * text.length + 2) text
        let changed ← afterPair rest (document.addPair parts content)
        return (changed, rest)
      else stop .invalidStatement text
  | [] => .ok (document, [])

/-- The statements of a text, each on a line of its own. -/
def statements (number : Nat) : Nat → Document → Text → Except Failure Document
  | 0, document, _ => .ok document
  | steps + 1, document, text =>
      match skipSpaces text with
      | [] => .ok document
      | '\n' :: rest => statements number steps document rest
      | start => do
          let (changed, left) ← document.statement number start
          let rest ← skipComment (skipSpaces left)
          match rest with
          | [] => return changed
          | '\n' :: after => statements number steps changed after
          | _ => stop .missingLineEnd rest

end Document

/-- Line ends of two characters become newlines. -/
def withNewlines : Text → Text
  | '\r' :: '\n' :: rest => '\n' :: withNewlines rest
  | c :: rest => c :: withNewlines rest
  | [] => []

/-- The entries of a document.  The number tells the documents of one run
apart. -/
def read (number : Nat) (text : Text) : Except ReadError Entries :=
  let source := withNewlines text
  match Document.statements number (source.length + 1) .empty source with
  | .ok document => .ok document.entries
  | .error failure => .error (failure.error source)

end TemplateLint.Toml
