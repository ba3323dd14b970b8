import TemplateLint.Registry.Module
import TemplateLint.Session

/-!
# The command line

Arguments become options and files, in any order.  A run prints the events of
a session to two streams and ends with an exit code.
-/

namespace TemplateLint

namespace CommandLine

/-- Options that stand alone. -/
inductive Switch where
  | lintAll
  | enableAllLinters
  | autocorrect
  | allowNoFiles
  | showLinterNames
  | verbose
  | version
  | help
  deriving DecidableEq, Repr

/-- Options that take a value. -/
inductive Setting where
  | config
  | enableLinter
  | failLevel
  | format
  | standardInput
  deriving DecidableEq, Repr

def switch? : String → Option Switch
  | "--lint-all" => some .lintAll
  | "--enable-all-linters" => some .enableAllLinters
  | "--autocorrect" => some .autocorrect
  | "--allow-no-files" => some .allowNoFiles
  | "--show-linter-names" => some .showLinterNames
  | "--verbose" => some .verbose
  | "--version" => some .version
  | "--help" => some .help
  | _ => none

def setting? : String → Option Setting
  | "--config" => some .config
  | "--enable-linter" => some .enableLinter
  | "--fail-level" => some .failLevel
  | "--format" => some .format
  | "--stdin" => some .standardInput
  | _ => none

/-- One argument, or an option with its value. -/
inductive Item where
  | switch (switch : Switch)
  | setting (setting : Setting) (value : String)
  | file (name : String)
  deriving DecidableEq

/-- How an argument looks before its option is known. -/
inductive Shape where
  | endOfOptions
  | long (name : String) (value : Option String)
  | short (letters : Text)
  | plain

/-- A single dash is plain; an option with two dashes may hold its value after
an equals sign. -/
def shapeOf (argument : String) : Shape :=
  match argument.toList with
  | ['-', '-'] => .endOfOptions
  | '-' :: '-' :: rest =>
      let name := String.ofList ('-' :: '-' :: rest.takeWhile (· ≠ '='))
      match rest.dropWhile (· ≠ '=') with
      | _ :: value => .long name (some (String.ofList value))
      | [] => .long name none
  | '-' :: letter :: letters => .short (letter :: letters)
  | _ => .plain

/-- The items of the arguments, unless one of them is not understood.  A
setting that waits for its value takes the next argument, whatever that looks
like. -/
def itemsAfter (waiting : Option Setting) : List String → Option (List Item)
  | [] => if waiting.isSome then none else some []
  | argument :: rest =>
      match waiting with
      | some setting =>
          (itemsAfter none rest).map (.setting setting argument :: ·)
      | none =>
          match shapeOf argument with
          | .endOfOptions => some (rest.map .file)
          | .plain => (itemsAfter none rest).map (.file argument :: ·)
          | .short letters =>
              if letters.all (· = 'a') then
                (itemsAfter none rest).map (.switch .autocorrect :: ·)
              else none
          | .long name (some value) =>
              match setting? name with
              | some setting =>
                  (itemsAfter none rest).map (.setting setting value :: ·)
              | none => none
          | .long name none =>
              match switch? name, setting? name with
              | some switch, _ =>
                  (itemsAfter none rest).map (.switch switch :: ·)
              | none, some setting => itemsAfter (some setting) rest
              | none, none => none

def items? (arguments : List String) : Option (List Item) :=
  itemsAfter none arguments

/-- What the arguments ask for. -/
inductive Request where
  | help
  | version
  | lint (options : Options) (verbose : Bool)

def applySwitch (options : Options) : Switch → Options
  | .lintAll => { options with everything := true }
  | .enableAllLinters => { options with enableAllLinters := true }
  | .autocorrect => { options with autocorrect := true }
  | .allowNoFiles => { options with allowNoFiles := true }
  | .showLinterNames => { options with showLinterNames := true }
  | .verbose | .version | .help => options

def applySetting (options : Options) (value : String) : Setting → Options
  | .config => { options with config := some (.ofString value) }
  | .enableLinter =>
      { options with enableLinters := some (splitLinterNames value.toList) }
  | .failLevel => { options with failLevel := some value }
  | .format => { options with format := value }
  | .standardInput =>
      { options with standardInput := some (.ofString value) }

/-- The options after one more item: the last value of a setting counts. -/
def applyItem (options : Options) : Item → Options
  | .switch switch => applySwitch options switch
  | .setting setting value => applySetting options value setting
  | .file name => { options with files := options.files ++ [.ofString name] }

/-- The request of understood arguments: help and version come before all
else, the first of them first. -/
def requestOf (items : List Item) : Request :=
  match items.find? fun item =>
      item = .switch .help || item = .switch .version with
  | some (.switch .help) => .help
  | some _ => .version
  | none =>
      .lint (items.foldl applyItem {}) (items.contains (.switch .verbose))

def version : String := "0.1.0"

def helpText : Text := Text.join ['\n'] (List.map String.toList
  ["Usage: lint [options] [[file1, file2, ...]]...",
    "",
    "  Lint ERB templates",
    "",
    "Arguments:",
    "  [file1, file2, ...] <list[Path]>",
    "                                  Files or directories to lint",
    "",
    "Options:",
    "  --config <path>        Config file [default: .erb-lint.toml]",
    "  --lint-all             Lint all files matching the configured glob",
    "  --enable-linter <str>  Only use the given linters (comma separated)",
    "  --enable-all-linters   Enable all known linters",
    "  --fail-level <str>     Minimum severity for exit with error code: I, R, C, W,",
    "                         E or F",
    "  --format <str>         Report offenses in the given format: (compact, json,",
    "                         junit, multiline)  [default: multiline]",
    "  -a, --autocorrect      Correct offenses automatically",
    "  --stdin <path>         Lint an input stream (not a file) using the given path",
    "                         for configuration",
    "  --allow-no-files       Succeed when no files are found",
    "  --show-linter-names    Show linter names",
    "  --verbose              Log debug output to stderr",
    "  --version              Show version and exit",
    "  --help                 Show this message and exit."])

/-- The part of the program that makes a note, and its text. -/
def noteLine : Note → Text
  | .configLoaded path =>
      "erb_lint.config: Loaded configuration from " ++ path.toList
  | .linterLoaded name file =>
      "erb_lint.registry: Loaded custom linter " ++ name.toList ++ " from "
        ++ file.toList
  | .filesDiscovered count =>
      "erb_lint.discovery: Discovered " ++ Text.ofNat count ++ " files"
  | .correctionDropped linterName beginPos endPos filename =>
      "erb_lint.corrector: Dropping " ++ linterName.toList ++ " correction at "
        ++ Text.ofInt beginPos ++ "..." ++ Text.ofInt endPos ++ " in "
        ++ filename.toList ++ ": overlaps an earlier correction"
  | .correctionsApplied count filename =>
      "erb_lint.engine: Applied " ++ Text.ofNat count ++ " corrections to "
        ++ filename.toList
  | .correctionsWritten count filename =>
      "erb_lint_cli.session: Wrote " ++ Text.ofNat count
        ++ " corrections to " ++ filename.toList

/-- How many characters of a text a terminal control sequence takes, after its
opening bracket. -/
def controlLength? (text : Text) : Option Nat :=
  let isParameter (c : Char) : Bool := c.isDigit || c = ';' || c = '?'
  match text.dropWhile isParameter with
  | c :: _ =>
      if c.isAlpha then some ((text.takeWhile isParameter).length + 1) else none
  | [] => none

/-- The text without terminal control sequences; the first `skipped`
characters belong to one. -/
def withoutControls (skipped : Nat) : Text → Text
  | [] => []
  | c :: rest =>
      match skipped with
      | more + 1 => withoutControls more rest
      | 0 =>
          let sequence :=
            match decide (c.toNat = 27), rest with
            | true, '[' :: later => controlLength? later
            | _, _ => none
          match sequence with
          | some length => withoutControls (length + 1) rest
          | none => c :: withoutControls 0 rest

/-- What has been printed to the two streams. -/
structure Printed where
  out : Text := []
  err : Text := []

/-- Prints an event.  Notes are shown only on demand. -/
def Printed.event (verbose : Bool) (printed : Printed) : Event → Printed
  | .out text newline =>
      { printed with
        out := printed.out ++ withoutControls 0 text
          ++ (if newline then ['\n'] else []) }
  | .err text =>
      { printed with err := printed.err ++ withoutControls 0 text ++ ['\n'] }
  | .note note =>
      if verbose then
        { printed with err := printed.err ++ noteLine note ++ ['\n'] }
      else printed

def Printed.events (verbose : Bool) (printed : Printed) (events : List Event) :
    Printed :=
  events.foldl (Printed.event verbose) printed

/-- Why a run breaks off. -/
inductive Breakdown where
  /-- A path with a null character in it. -/
  | nullInPath
  | loading (error : LoadError)
  | session (crash : Crash)

def Breakdown.message : Breakdown → Text
  | .nullInPath => "embedded null byte"
  | .loading (.moduleFailed message) => message
  | .loading (.moduleIsDirectory file) => file.toList ++ ": is a directory"
  | .loading (.nameTaken error) => error.message
  | .session (.config error) => error.message
  | .session (.discovery error) => error.message
  | .session .patternNotText => "an exclude pattern is not a text"

/-- How a run of the program ends. -/
structure Ending where
  exitCode : Nat
  printed : Printed
  tree : FileTree
  breakdown : Option Breakdown := none

/-- What a run of the program finds in place. -/
structure World where
  directory : Path
  tree : FileTree
  modules : Modules
  metadata : Metadata
  standardInput : Utf8.Bytes

/-- The built-in linters followed by those of the project. -/
def defaultLoading (world : World) : Loading :=
  Registry.builtin.load world.tree world.modules world.directory
    (.ofString defaultModuleDirectory)

/-- Lints with a registry that has been loaded. -/
def lintWith (world : World) (registry : Registry) (options : Options)
    (verbose : Bool) (printed : Printed) : Ending :=
  if !options.hasTargets then
    let known : Text := "Known linters are: "
      ++ Text.join ", " (registry.linterNames.map (·.toList))
    { exitCode := 1
      printed := printed.events verbose [.err helpText, .err known]
      tree := world.tree }
  else
    let workspace : Workspace :=
      { directory := world.directory, tree := world.tree, registry
        metadata := world.metadata
        standardInput :=
          (Utf8.decode world.standardInput).map Text.universalNewlines }
    let result := Session.run workspace options
    let shown := printed.events verbose result.events
    match result.ending with
    | .error crash =>
        { exitCode := 1, printed := shown, tree := result.tree
          breakdown := some (.session crash) }
    | .ok outcome =>
        let failure := outcome.failure.toList.map fun failure =>
          Event.err failure.message
        { exitCode := if outcome.success then 0 else 1
          printed := shown.events verbose failure
          tree := result.tree }

/-- Lints with the default registry. -/
def lintWithDefault (world : World) (options : Options) (verbose : Bool) :
    Ending :=
  let loading := defaultLoading world
  let printed := Printed.events verbose {}
    (loading.loaded.map fun loaded =>
      .note (.linterLoaded loaded.1.name loaded.2))
  match loading.failure with
  | some error =>
      { exitCode := 1, printed, tree := world.tree
        breakdown := some (.loading error) }
  | none => lintWith world loading.registry options verbose printed

/-- The options that arguments give, if they ask for linting. -/
def options? (arguments : List String) : Option Options :=
  match (items? arguments).map requestOf with
  | some (.lint options _) => some options
  | _ => none

/-- Runs the program; without a given registry it loads the default one.
Arguments that are not understood give exit code two. -/
def run (world : World) (registry : Option Registry) (arguments : List String) :
    Ending :=
  match (items? arguments).map requestOf with
  | none => { exitCode := 2, printed := {}, tree := world.tree }
  | some .help =>
      { exitCode := 0, printed := { out := helpText ++ ['\n'] }
        tree := world.tree }
  | some .version =>
      { exitCode := 0, printed := { out := version.toList ++ ['\n'] }
        tree := world.tree }
  | some (.lint options verbose) =>
      if options.paths.any fun path => '\x00' ∈ path.toString.toList then
        { exitCode := 1, printed := {}, tree := world.tree
          breakdown := some .nullInPath }
      else
        match registry with
        | some given => lintWith world given options verbose {}
        | none => lintWithDefault world options verbose

end CommandLine

end TemplateLint
