import TemplateLint.Linter.Options
import TemplateLint.Registry
import TemplateLint.Text.Utf8
import TemplateLint.Toml.Document
import TemplateLint.Value.Merge
import TemplateLint.Value.Plain

/-!
# Configuration of a run

A configuration is a table in plain form: global entries and one section per
linter.  Later layers override earlier ones by merging.  The options of a
linter are its section, whose excludes are continued by the global ones.
-/

namespace TemplateLint

/-- Why a configuration cannot be read or resolved. -/
inductive ConfigError where
  | fileMissing (path : String)
  | malformed (reason : Text)
  /-- A file of numbers that are too long to be read. -/
  | tooManyDigits (count : Nat)
  | notUtf8
  | linterNotFound (name : String)
  | invalidOption (linterName : String) (error : OptionError)
  /-- Something other than a table stands where a table is looked into. -/
  | notTable
  /-- A value of a kind that has no items stands where items are needed. -/
  | noItems
  | notPair (index length : Nat)
  deriving DecidableEq

def ConfigError.message : ConfigError → Text
  | .fileMissing path => path.toList ++ ": does not exist"
  | .malformed reason => "error parsing config: " ++ reason
  | .tooManyDigits count => (Toml.ReadError.tooManyDigits count).message
  | .notUtf8 => "the file is not encoded in UTF-8"
  | .linterNotFound name =>
      name.toList ++ ": linter not found (is it loaded?)"
  | .invalidOption linterName error =>
      linterName.toList ++ ": invalid option '"
        ++ (if error.key = "" then "?" else error.key).toList ++ "' ("
        ++ error.problem.message ++ ")"
  | .notTable => "the value has no entries"
  | .noItems => "the value has no items"
  | .notPair index length =>
      "dictionary update sequence element #" ++ Text.ofNat index
        ++ " has length " ++ Text.ofNat length ++ "; 2 is required"

/-- A configuration in plain form, with the registry that knows its linters. -/
structure RunnerConfig where
  entries : Entries
  registry : Registry

namespace Value

/-- The items of a value: those of a list, the keys of a table, the characters
of a text. -/
def items? : Value → Option (List Value)
  | list items | tuple items => some items
  | table entries | mapping entries => some (entries.map (·.1))
  | text content =>
      some (content.toList.map fun c => text (String.singleton c))
  | _ => none

/-- Whether a value can be a key. -/
def isKey : Value → Bool
  | list _ | table _ | mapping _ => false
  | tuple items => keysOnly items
  | _ => true
where
  keysOnly : List Value → Bool
    | [] => true
    | item :: later => item.isKey && keysOnly later

/-- Entries from items that are pairs of a key and a value. -/
def entriesOfPairs (done : Entries) (index : Nat) :
    List Value → Except ConfigError Entries
  | [] => .ok done
  | item :: later =>
      match item.items? with
      | none => .error .noItems
      | some [key, value] =>
          if key.isKey then entriesOfPairs (done.put key value) (index + 1) later
          else .error .noItems
      | some other => .error (.notPair index other.length)

/-- The entries of a value that is to become a table.  An empty value gives
none. -/
def toEntries (value : Value) : Except ConfigError Entries :=
  if !value.isTruthy then .ok []
  else
    match value.entries?, value.items? with
    | some entries, _ => .ok entries
    | none, some items => entriesOfPairs [] 0 items
    | none, none => .error .noItems

end Value

namespace RunnerConfig

/-- The configuration with the plain form of some entries. -/
def ofEntries (entries : Entries) (registry : Registry) : RunnerConfig :=
  ⟨Value.plainEntries [] entries, registry⟩

def ofValue (value : Value) (registry : Registry) :
    Except ConfigError RunnerConfig :=
  value.toEntries.map fun entries => ofEntries entries registry

def equal (first second : RunnerConfig) : Bool :=
  (Value.table first.entries).equal (.table second.entries)

/-- The value under a key, unless it is missing or empty. -/
def given? (entries : Entries) (name : String) : Option Value :=
  (entries.named? name).filter Value.isTruthy

/-- The excludes for all linters. -/
def globalExclude (config : RunnerConfig) : Except ConfigError (List Value) :=
  match given? config.entries "exclude" with
  | none => .ok []
  | some value =>
      match value.items? with
      | some items => .ok items
      | none => .error .noItems

/-- The glob for directories, of whatever kind it is. -/
def glob (config : RunnerConfig) : Value :=
  (config.entries.named? "glob").getD .null

/-- The sections of all linters. -/
def linters (config : RunnerConfig) : Value :=
  (given? config.entries "linters").getD (.table [])

/-- Looks into a table. -/
def lookInto (value : Value) : Except ConfigError Entries :=
  match value with
  | .table entries => .ok entries
  | _ => .error .notTable

/-- The section of a linter as it was written. -/
def section? (config : RunnerConfig) (name : String) :
    Except ConfigError Entries := do
  let sections ← lookInto config.linters
  lookInto ((given? sections name).getD (.table []))

/-- The section of a linter with the excludes for all linters.  Excludes that
are no list stay as they are. -/
def sectionWithExcludes (config : RunnerConfig) (name : String) :
    Except ConfigError Entries := do
  let own ← config.section? name
  match (given? own "exclude").getD (.list []) with
  | .list items => do
      let shared ← config.globalExclude
      return own.put Value.excludeKey (.list (items ++ shared))
  | _ => return own

/-- The options of the linter that a name finds. -/
def forLinter (config : RunnerConfig) (name : String) :
    Except ConfigError LinterConfig :=
  match config.registry.find? name with
  | none => .error (.linterNotFound name)
  | some linterClass => do
      let entries ← config.sectionWithExcludes linterClass.name
      match LinterConfig.resolve linterClass.schema entries with
      | .ok options => return options
      | .error error => .error (.invalidOption linterClass.name error)

/-- The layers of two configurations, the second one on top. -/
def merge (base override : RunnerConfig) : RunnerConfig :=
  ofEntries (base.entries.merge override.entries) base.registry

/-- The first configuration after taking over the second one. -/
def mergeInPlace (base override : RunnerConfig) : RunnerConfig :=
  { base with entries := base.entries.merge override.entries }

/-- A section that switches a linter on or off. -/
def switched (name : String) (enabled : Bool) : Value × Value :=
  (.text name, .table [(.text "enabled", .bool enabled)])

/-- A configuration of nothing but linter sections. -/
def ofSections (sections : Entries) (registry : Registry) : RunnerConfig :=
  ofEntries [(.text "linters", .table sections)] registry

/-- The linters that are on by default: all that are built in. -/
def defaultLinters : List String := LinterClass.builtin.map (·.name)

def default (registry : Registry) : RunnerConfig :=
  ofSections (defaultLinters.map fun name => switched name true) registry

/-- Whether the defaults are to be added. -/
def asksForDefaults (config : RunnerConfig) : Bool :=
  (given? config.entries "EnableDefaultLinters").isSome

/-- The configuration on top of the defaults, if it asks for them. -/
def overDefaults (config : RunnerConfig) : RunnerConfig :=
  if config.asksForDefaults then (default config.registry).merge config
  else config

/-- Reads the bytes of a configuration file.  The number tells the files of
one run apart. -/
def read (number : Nat) (bytes : Utf8.Bytes) (registry : Registry) :
    Except ConfigError RunnerConfig :=
  match Utf8.decode bytes with
  | .error _ => .error .notUtf8
  | .ok text =>
      match Toml.read number text with
      | .error (.malformed reason) => .error (.malformed reason)
      | .error (.tooManyDigits count) => .error (.tooManyDigits count)
      | .ok entries => .ok (ofEntries entries registry)

end RunnerConfig

end TemplateLint
