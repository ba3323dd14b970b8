import TemplateLint.Report.Format
import TemplateLint.Session.Outcome

/-!
# Sessions

A session is one invocation: it reads the configuration, selects linters,
finds files, lints them and reports.  Corrected files are written only after
every file has been linted, and nothing is reported once a failure occurs.
-/

namespace TemplateLint

/-- What an invocation is asked to do. -/
structure Options where
  files : List Path := []
  config : Option Path := none
  everything : Bool := false
  enableLinters : Option (List String) := none
  enableAllLinters : Bool := false
  failLevel : Option String := none
  format : String := ReportFormat.default.name
  autocorrect : Bool := false
  standardInput : Option Path := none
  allowNoFiles : Bool := false
  showLinterNames : Bool := false

/-- Whether there is anything to lint. -/
def Options.hasTargets (options : Options) : Bool :=
  !options.files.isEmpty || options.everything || options.standardInput.isSome

/-- The paths that the options mention. -/
def Options.paths (options : Options) : List Path :=
  options.files ++ options.config.toList ++ options.standardInput.toList

/-- Names between commas, without white space around them and without empty
ones. -/
def splitLinterNames (names : Text) : List String :=
  (((names.parts ',').map Text.trim).filter (!·.isEmpty)).map String.ofList

/-- Where a session takes place. -/
structure Workspace where
  directory : Path
  tree : FileTree
  registry : Registry
  metadata : Metadata
  /-- The text of the standard input, unless it is not encoded in UTF-8. -/
  standardInput : Except Utf8.Fault Text

namespace Session

def defaultConfigFile : String := ".erb-lint.toml"

def noFilesMessage : Text := "no files found..."

/-- A configuration error: an invalid option is reported. -/
def configResult (result : Except ConfigError α) : Stage α :=
  match result with
  | .ok value => .done value
  | .error (.invalidOption linterName error) =>
      .fail .invalidConfig (ConfigError.invalidOption linterName error).message
  | .error error => .crash (.config error)

def parseFailLevel (level : Option String) : Stage Severity :=
  match level with
  | none => .done Severity.defaultFailLevel
  | some text =>
      match Severity.parse? text.toList with
      | some severity => .done severity
      | none => .fail .invalidFailLevel (Severity.unknownMessage text.toList)

def parseFormat (name : String) : Stage ReportFormat :=
  match ReportFormat.ofName? name with
  | some format => .done format
  | none =>
      .fail .unknownFormat
        (name.toList ++ ": is not a valid format. Available formats:\n"
          ++ Text.join ['\n'] (ReportFormat.available.map fun format =>
              "  - " ++ format.name.toList))

/-- Reads a configuration file. -/
def readConfig (workspace : Workspace) (path : Path) (bytes : Utf8.Bytes) :
    Stage RunnerConfig :=
  match RunnerConfig.read 0 bytes workspace.registry with
  | .ok config => do
      Stage.tell [.note (.configLoaded path.toString)]
      return config.overDefaults
  | .error (.malformed reason) =>
      .fail .configParse (ConfigError.malformed reason).message
  | .error error => .crash (.config error)

/-- The configuration of the user, or the default one with a warning.  A file
that was asked for must exist. -/
def loadConfig (workspace : Workspace) (requested : Option Path) :
    Stage RunnerConfig :=
  let path := requested.getD (.ofString defaultConfigFile)
  match workspace.tree.bytes? (workspace.directory.under path).components with
  | some bytes => readConfig workspace path bytes
  | none =>
      match requested with
      | some path =>
          .fail .configNotFound (ConfigError.fileMissing path.toString).message
      | none => do
          Stage.tell [.err (defaultConfigFile.toList
            ++ " not found: using default config")]
          return RunnerConfig.default workspace.registry

/-- A layer that switches exactly some linters on and all others off. -/
def enabledOverride (registry : Registry) (enabled : List LinterClass) :
    RunnerConfig :=
  RunnerConfig.ofSections (registry.classes.map fun linterClass =>
    RunnerConfig.switched linterClass.name (enabled.any linterClass.same))
    registry

/-- The classes with the given linter names. -/
def resolveNames (registry : Registry) : List String → Stage (List LinterClass)
  | [] => .done []
  | name :: later =>
      match (registry.find? name).filter (·.linterName = name) with
      | some linterClass => do
          let others ← resolveNames registry later
          return linterClass :: others
      | none =>
          .fail .unknownLinter (name.toList ++ ": not a valid linter name ("
            ++ Text.join ", " (registry.linterNames.map (·.toList)) ++ ")")

/-- The configuration after the options that enable linters. -/
def applyEnabling (options : Options) (config : RunnerConfig) :
    Stage RunnerConfig :=
  if options.enableAllLinters then
    .done (config.merge
      (enabledOverride config.registry config.registry.classes))
  else
    match options.enableLinters with
    | none => .done config
    | some names => do
        let enabled ← resolveNames config.registry names
        return config.merge (enabledOverride config.registry enabled)

/-- What is known before any file is looked for. -/
structure Preparation where
  config : RunnerConfig
  failLevel : Severity
  format : ReportFormat

def prepare (workspace : Workspace) (options : Options) : Stage Preparation := do
  let failLevel ← parseFailLevel options.failLevel
  let format ← parseFormat options.format
  let loaded ← loadConfig workspace options.config
  let config ← applyEnabling options loaded
  return ⟨config, failLevel, format⟩

/-- The registered classes that the configuration enables. -/
def selectLinters (config : RunnerConfig) : Stage (List LinterClass) :=
  configResult (config.registry.classes.filterM fun linterClass =>
    (config.forLinter linterClass.name).map (·.enabled))

/-- The glob of a configuration, if it is a text or missing. -/
def globOf (config : RunnerConfig) : Option Text :=
  if config.glob.isTruthy then
    match config.glob with
    | .text pattern => some pattern.toList
    | _ => none
  else some defaultGlob

/-- The files that the options name. -/
def findFiles (workspace : Workspace) (options : Options)
    (config : RunnerConfig) : Stage (List String) :=
  let search : Search :=
    ⟨workspace.directory, workspace.directory, globOf config,
      options.everything⟩
  let found :=
    match options.standardInput with
    | some path =>
        { search with glob := some defaultGlob, everything := false }.discover
          workspace.tree [path.toString]
    | none =>
        search.discover workspace.tree (options.files.map Path.toString)
  match found with
  | .ok files => ⟨[.note (.filesDiscovered files.length)], .ok files⟩
  | .error (.pathNotFound name) =>
      .fail .pathNotFound (DiscoveryError.pathNotFound name).message
  | .error error => .crash (.discovery error)

/-- The texts at the beginning of a list, and whether anything else follows. -/
def leadingTexts : List Value → List String × Bool
  | [] => ([], false)
  | .text content :: later =>
      let rest := leadingTexts later
      (content :: rest.1, rest.2)
  | _ :: _ => ([], true)

/-- Leaves out the files that the configuration excludes.  A pattern that is
no text is an error once a file gets to it. -/
def excludeFiles (workspace : Workspace) (config : RunnerConfig)
    (files : List String) : Stage (List String) := do
  let patterns ← configResult config.globalExclude
  let (texts, hasOther) := leadingTexts patterns
  let kept := files.filter fun file =>
    !isExcluded workspace.directory workspace.directory.toString texts file
  if hasOther && !kept.isEmpty then Stage.crash .patternNotText
  else return kept

/-- The files to lint. -/
def discover (workspace : Workspace) (options : Options)
    (config : RunnerConfig) : Stage (List String) := do
  match options.standardInput with
  | some path =>
      if workspace.tree.isDirectory
          (workspace.directory.under path).components then
        Stage.fail .pathNotFound (path.toString.toList ++ ": is not a file")
  | none => pure ()
  let found ← findFiles workspace options config
  excludeFiles workspace config found

/-- The text to lint under a file name. -/
def readText (workspace : Workspace) (options : Options) (filename : String) :
    Except Text Text :=
  if options.standardInput.isSome then
    workspace.standardInput.mapError Utf8.Fault.message
  else
    match workspace.tree.bytes? (Path.ofString filename).components with
    | some bytes => (Utf8.decode bytes).mapError Utf8.Fault.message
    | none =>
        .error ("[Errno 2] No such file or directory: "
          ++ Quoted.encode filename.toList)

/-- How far linting has come. -/
structure Linted where
  stats : Stats
  /-- Corrected files that are still to be written. -/
  pending : List FileResult
  /-- The corrected text of the standard input. -/
  output : Option Text

/-- Takes over the result for one file. -/
def Linted.add (linted : Linted) (options : Options) (content : Text)
    (result : FileResult) : Linted :=
  let viaInput := options.standardInput.isSome
  let stats := linted.stats.record result.filename result.offenses
  match result.correctedContent with
  | some corrected =>
      let counted :=
        { stats with corrected := stats.corrected + result.corrected }
      if viaInput then
        { linted with stats := counted, output := some corrected }
      else
        { linted with
          stats := counted, pending := linted.pending ++ [result] }
  | none =>
      if viaInput && options.autocorrect then
        { linted with stats, output := some content }
      else { linted with stats }

/-- Lints one file. -/
def lintFile (workspace : Workspace) (options : Options) (engine : Engine)
    (linted : Linted) (filename : String) : Stage Linted :=
  match readText workspace options filename with
  | .error reason =>
      .fail .readError (filename.toList ++ ": " ++ reason) linted.stats
  | .ok content => do
      let run := engine.runFile workspace.directory filename content
        options.autocorrect
      Stage.tell (run.notes.map .note)
      match run.outcome with
      | .error error =>
          Stage.fail .linterCrashed ("Error: " ++ error.message) linted.stats
      | .ok result => return linted.add options content result

/-- Lints files one after another. -/
def lintFiles (workspace : Workspace) (options : Options) (engine : Engine) :
    Linted → List String → Stage Linted
  | linted, [] => .done linted
  | linted, filename :: later => do
      let next ← lintFile workspace options engine linted filename
      lintFiles workspace options engine next later

/-- The file tree after the corrected files have been written. -/
def writeAll (tree : FileTree) (results : List FileResult) : FileTree :=
  results.foldl (fun tree result =>
    match result.correctedContent with
    | some content =>
        tree.writeTo (Path.ofString result.filename).components
          (Utf8.encode content)
    | none => tree) tree

/-- An event for a text that is not empty. -/
def unlessEmpty (event : Text → Event) : Option Text → List Event
  | none => []
  | some text => if text.isEmpty then [] else [event text]

/-- The counts of a run before its first file. -/
def initialStats (engine : Engine) (files : List String) : Stats :=
  { linters := engine.linters.length
    autocorrectableLinters := engine.autocorrectableCount
    files := files.length }

/-- Lints files and reports.  The result has the files to be written. -/
def lint (workspace : Workspace) (options : Options) (engine : Engine)
    (files : List String) (preparation : Preparation) :
    Stage (Outcome × List FileResult) := do
  let style : ReportStyle :=
    ⟨options.autocorrect, options.showLinterNames, workspace.metadata⟩
  let stats := initialStats engine files
  Stage.tell (unlessEmpty .err (preparation.format.preview? style stats))
  let linted ← lintFiles workspace options engine ⟨stats, [], none⟩ files
  Stage.tell (linted.pending.map fun result =>
    .note (.correctionsWritten result.corrected result.filename))
  let verdict := Verdict.of preparation.failLevel linted.stats.offenses
  let final :=
    { linted.stats with found := verdict.found, ignored := verdict.ignored }
  Stage.tell
    (unlessEmpty (.out · true) (some (preparation.format.render style final))
      ++ unlessEmpty .err (preparation.format.summary? final)
      ++ linted.output.toList.map (.out · false))
  return ({ stats := final, verdict := some verdict }, linted.pending)

/-- The stages of a session; files to be written come with the outcome. -/
def stages (workspace : Workspace) (options : Options) :
    Stage (Outcome × List FileResult) := do
  let preparation ← prepare workspace options
  let classes ← selectLinters preparation.config
  let files ← discover workspace options preparation.config
  if files.isEmpty then
    if options.allowNoFiles then
      Stage.tell [.err noFilesMessage]
      return ({}, [])
    else Stage.fail .noFiles noFilesMessage
  else
    let engine ← configResult (Engine.build preparation.config classes
      workspace.directory.toString)
    lint workspace options engine files preparation

/-- What a session leaves behind. -/
structure Result where
  events : List Event
  tree : FileTree
  ending : Except Crash Outcome

/-- Runs a session. -/
def run (workspace : Workspace) (options : Options) : Result :=
  let stage := stages workspace options
  match stage.result with
  | .ok (outcome, written) =>
      ⟨stage.events, writeAll workspace.tree written, .ok outcome⟩
  | .error (.ended outcome) => ⟨stage.events, workspace.tree, .ok outcome⟩
  | .error (.crashed crash) => ⟨stage.events, workspace.tree, .error crash⟩

end Session

end TemplateLint
