import CallAtlas.Analysis
import CallAtlas.CallTree.Dot
import CallAtlas.Command.Numeral
import CallAtlas.Command.Options
import CallAtlas.Command.Output
import CallAtlas.Settings
import CallAtlas.Settings.Toml.Writer

/-!
# Commands

The command line: `analyze` reports on contracts and their imports, `extract` on the call tree of
one function, `show-config` and `set-config` deal with the settings.  A command line is worked off
without touching the outside: the environment, the variables and the files are given, and what is
shown and written is the answer.
-/

namespace CallAtlas.Command

open CallAtlas.Text

/-- Where a command works. -/
structure Place where
  env : Environment
  vars : Settings.Variables
  files : Files
  /-- The time that reports are stamped with. -/
  now : String
  importDepth : Int := Analysis.defaultImportDepth
  callDepth : Int := Analysis.defaultCallDepth
  includeSource : Bool := true

/-- How a command ends. -/
inductive Ending where
  | exit (code : Nat)
  | usage (error : UsageError)
  | file (error : FileError)
  /-- A section of the settings is no table. -/
  | badSettings
  /-- The settings file holds a text that is neither readable nor malformed. -/
  | unreadable (fault : Settings.Toml.Fault)
  /-- The settings have no written form. -/
  | unwritable (fault : Settings.Toml.WriteFault)
  /-- A value of the settings is not of the kind it has to be. -/
  | badValue
  /-- The run broke off. -/
  | brokenOff
deriving DecidableEq, Repr

/-- What a command did. -/
structure Outcome where
  ending : Ending
  /-- What was shown on the console. -/
  shown : List Output := []
  /-- What was written plainly. -/
  echoed : String := ""
  logLevel : Nat
  files : Files

/-- The version of the program. -/
def version : String := "0.3.0"

/-- The level from which log records are shown by default. -/
def defaultLogLevel : Nat := 30

/-! ### Arguments -/

/-- The addresses in a comma-separated list. -/
def splitUrls (value : String) : Except UsageError (List String) :=
  match ((split ',' value).map trim).filter (· != "") with
  | [] => .error (.badParameter "At least one contract URL is required.")
  | urls => .ok urls

/-- A count that is not negative, or the default where none is given. -/
def count? (p : Parsed) (setting : String) : Except UsageError (Option Int) :=
  match p.last? setting with
  | none => .ok none
  | some s =>
    match wholeNumber? s with
    | some n => if n < 0 then .error .badValue else .ok (some n)
    | none => .error .badValue

/-- The least timeout. -/
def leastTimeout : Number.Binary64 := .ofDecimal false 1 (-1)

/-- Whether a number is no less than a finite one that is not negative. -/
def isAtLeast : Number.Binary64 → Number.Binary64 → Bool
  | .finite negative m e, .finite _ n f =>
    let (a, b) := Number.Binary64.magnitude m e
    let (c, d) := Number.Binary64.magnitude n f
    !negative && c * b ≤ a * d
  | .infinite negative, _ => !negative
  | _, _ => false

/-- A timeout, where one is given. -/
def timeout? (p : Parsed) (setting : String) : Except UsageError (Option Number.Binary64) :=
  match p.last? setting with
  | none => .ok none
  | some s =>
    match realNumber? s with
    | some x => if isAtLeast x leastTimeout then .ok (some x) else .error .badValue
    | none => .error .badValue

/-- The plain arguments, of which there have to be exactly `n`. -/
def exactly (n : Nat) (p : Parsed) : Except UsageError (List String) :=
  if p.arguments.length < n then .error .missingParameter
  else if n < p.arguments.length then .error .misuse
  else .ok p.arguments

/-! ### Analysis -/

/-- The options of `analyze`. -/
def analyzeSpecs : List OptionSpec :=
  [{ names := ["--output", "-o"], setting := "output" },
    { names := ["--max-depth", "-d"], setting := "max-depth" },
    { names := ["--no-deps"], setting := "no-deps", flag := some "" },
    { names := ["--no-source"], setting := "no-source", flag := some "" }]

/-- What `analyze` is asked for. -/
structure AnalyzeRequest where
  urls : String
  output : Option String
  depth : Option Int
  noSource : Bool

/-- Reads the arguments of `analyze`. -/
def AnalyzeRequest.parse (place : Place) (arguments : List String) :
    Except UsageError AnalyzeRequest := do
  let p ← Command.parse analyzeSpecs true arguments
  let depth ← count? p "max-depth"
  let plain ← exactly 1 p
  return {
    urls := plain.headD ""
    output := p.last? "output"
    depth := if p.has "no-deps" then none else some (depth.getD place.importDepth)
    noSource := p.has "no-source" }

/-- The counts that `analyze` shows. -/
def summaryTable (c : Report.Summary) : Output :=
  .table "Analysis Summary" ["Metric", "Value"] [
    ["Files analyzed", toString c.files],
    ["Functions", toString c.functions],
    ["Modifiers", toString c.modifiers],
    ["Events", toString c.events],
    ["State variables", toString c.stateVariables],
    ["Dependencies resolved",
      toString c.coverage.resolved.length ++ "/" ++ toString c.coverage.found.length],
    ["Success rate", (c.coverage.successRate.rounded.scale 100).onePlace ++ "%"],
    ["Internal calls", toString c.internalCalls],
    ["External calls", toString c.externalCalls]]

/-- The imports that were given up, as `analyze` shows them. -/
def failureLines (c : Coverage) : List Output :=
  if c.failed.isEmpty then []
  else
    .line "\n[bold yellow]Failed dependencies[/bold yellow]" ::
      (c.external.map fun p => .line ("  • " ++ Markup.escape p ++ " [dim](external)[/dim]")) ++
      c.unreachable.map fun p => .line ("  • " ++ Markup.escape p ++ " [dim](unreachable)[/dim]")

/-- The line about a failure. -/
def failureLine (f : Analysis.Failure) : Output :=
  .line ("[red]✗ Error:[/red] " ++ Markup.escape f.message)

/-- The line about a report. -/
def savedLine (path : FilePath) : Output :=
  .line ("\n[green]✓[/green] Report saved to " ++ path.toText)

/-- Writes a report, making the directories it needs. -/
def saveReport (files : Files) (path : FilePath) (report : Document) : Except FileError Files := do
  let files ← files.makeDirectory path.parent
  files.write path report.render

/-- The state in which a run starts. -/
def Place.progress (place : Place) : Progress :=
  { session := { startedAt := place.now } }

/-- How a command ends that wrote a file, or failed to. -/
def afterSaving (level : Nat) (files : Files) (path : FilePath) (shown : List Output) :
    Except FileError Files → Outcome
  | .ok files =>
    { ending := .exit 0, shown := shown ++ [savedLine path], logLevel := level, files := files }
  | .error e => { ending := .file e, shown := shown, logLevel := level, files := files }

/-- `analyze`. -/
def analyze (place : Place) (level : Nat) (request : AnalyzeRequest) : Outcome :=
  let ending (e : Ending) (shown : List Output) : Outcome :=
    { ending := e, shown := shown, logLevel := level, files := place.files }
  match splitUrls request.urls with
  | .error e => ending (.usage e) []
  | .ok urls =>
    let title := [Output.line ("\n[bold cyan]Analyzing " ++ toString urls.length ++
      " contract(s)...[/bold cyan]\n")]
    match Analysis.analyze place.env urls request.depth place.progress with
    | (none, _) => ending .brokenOff title
    | (some (.error f), _) => ending (.exit 1) (title ++ [failureLine f])
    | (some (.ok ()), p) =>
      let s := p.session
      let report := Report.analysis place.now s (place.includeSource && !request.noSource)
      let shown := title ++ [summaryTable (Report.summary s)] ++ failureLines s.coverage
      let seed := (s.seeds.head?.map (·.path)).getD ""
      let path := FilePath.ofText (request.output.getD
        ("contract_analysis_" ++ (FilePath.ofText seed).stem ++ ".json"))
      afterSaving level place.files path shown (saveReport place.files path report)

/-! ### Extraction -/

/-- The options of `extract`. -/
def extractSpecs : List OptionSpec :=
  [{ names := ["--output", "-o"], setting := "output" },
    { names := ["--max-depth", "-d"], setting := "max-depth" },
    { names := ["--import-depth"], setting := "import-depth" },
    { names := ["--no-deps"], setting := "no-deps", flag := some "" },
    { names := ["--no-modifiers"], setting := "no-modifiers", flag := some "" },
    { names := ["--include-events"], setting := "include-events", flag := some "" },
    { names := ["--tree-only"], setting := "tree-only", flag := some "" },
    { names := ["--format", "-f"], setting := "format" },
    { names := ["--debug"], setting := "debug", flag := some "" }]

/-- What `extract` is asked for. -/
structure ExtractRequest where
  request : Analysis.Request
  output : Option String
  treeOnly : Bool
  format : String
  debug : Bool

/-- Reads the arguments of `extract`. -/
def ExtractRequest.parse (place : Place) (arguments : List String) :
    Except UsageError ExtractRequest := do
  let p ← Command.parse extractSpecs true arguments
  let callDepth ← count? p "max-depth"
  let importDepth ← count? p "import-depth"
  let plain ← exactly 2 p
  return {
    request := {
      url := plain.headD ""
      function := plain.getLastD ""
      callDepth := callDepth.getD place.callDepth
      importDepth :=
        if p.has "no-deps" then none else some (importDepth.getD place.importDepth)
      slice := { modifiers := !p.has "no-modifiers", events := p.has "include-events" } }
    output := p.last? "output"
    treeOnly := p.has "tree-only"
    format := (p.last? "format").getD "json"
    debug := p.has "debug" }

/-- The panel that `extract` shows. -/
def extractionPanel (x : Report.Extraction) : Output :=
  let c := x.coverage
  .panel "Extraction Summary"
    ("Signature: " ++ Markup.escape x.entity.signature ++
      "\nCall depth: " ++ toString x.tree.maxDepth ++ " (max " ++ toString x.callDepth ++ ")" ++
      "\nFiles involved: " ++ toString x.files.length ++
      "\nDependencies: " ++ toString c.resolved.length ++ " resolved, " ++
      toString c.failed.length ++ " failed of " ++ toString c.found.length ++
      " (" ++ (c.successRate.rounded.scale 100).onePlace ++ "%)" ++
      "\nRelevant declarations: " ++ toString x.entities.length)

/-- The declarations by file, as `extract` shows them. -/
def byFileTable (x : Report.Extraction) : Output :=
  .table "Functions by file" ["File", "Declarations"]
    ((CallTree.byFile x.entities).map fun entry => [entry.1, join ", " entry.2])

/-- The formats in which `extract` writes. -/
def formats : List String := ["json", "dot"]

/-- `extract`. -/
def extract (place : Place) (level : Nat) (request : ExtractRequest) : Outcome :=
  if !formats.contains request.format then
    { ending := .usage (.badParameter ("Unknown format '" ++ request.format ++
        "'. Choose from: " ++ join ", " formats))
      logLevel := level
      files := place.files }
  else
    let level := if request.debug then 10 else level
    let ending (e : Ending) (shown : List Output) : Outcome :=
      { ending := e, shown := shown, logLevel := level, files := place.files }
    let title := [Output.line ("\n[bold cyan]Extracting call tree for '" ++
      request.request.function ++ "'...[/bold cyan]\n")]
    match Analysis.extract place.env request.request place.progress with
    | (none, _) => ending .brokenOff title
    | (some (.error f), _) => ending (.exit 1) (title ++ [failureLine f])
    | (some (.ok x), p) =>
      let shown := title ++ [.tree (labelTree x.tree)]
      if request.treeOnly then ending (.exit 0) shown
      else
        let shown := shown ++ [extractionPanel x, byFileTable x]
        let path := FilePath.ofText (request.output.getD
          (request.request.function ++ "_callgraph." ++ request.format))
        afterSaving level place.files path shown
          (if request.format = "dot" then place.files.write path x.tree.dot
          else saveReport place.files path
            (Report.extraction place.now p.session x place.includeSource))

/-! ### Settings -/

/-- How credentials are shown: their first four characters, or that there are none. -/
def maskedToken? : Settings.Toml.Value → Option String
  | .text s =>
    some (if s = "" then "(not set)"
      else String.ofList (s.toList.take 4 ++ List.replicate 8 '•'))
  | value => if value.isTrue then none else some "(not set)"

/-- `show-config`. -/
def showConfig (place : Place) (level : Nat) : Outcome :=
  let ending (e : Ending) (shown : List Output) : Outcome :=
    { ending := e, shown := shown, logLevel := level, files := place.files }
  match Settings.file? place.vars with
  | none => ending .brokenOff []
  | some path =>
    match (Settings.load Settings.Toml.format place.files path).1 with
    | .error fault => ending (.unreadable fault) []
    | .ok settings =>
      match maskedToken? (Settings.lookup settings "github" "token") with
      | none => ending .badValue []
      | some token =>
        let rows := ((settings.get? "analysis").getD []).map fun entry =>
          ["analysis." ++ entry.1, entry.2.display]
        ending (.exit 0) [
          .table "SolGraph Configuration" ["Key", "Value"] (rows ++ [["github.token", token]]),
          .line ("Config file: " ++ path.toText ++
            (if place.files.contains path then "" else " [dim](not created yet)[/dim]"))]

/-- The options of `set-config`. -/
def setConfigSpecs : List OptionSpec :=
  [{ names := ["--import-depth"], setting := "import_depth" },
    { names := ["--call-depth"], setting := "call_depth" },
    { names := ["--timeout"], setting := "timeout" },
    { names := ["--include-source"], setting := "include_source", flag := some "true" },
    { names := ["--no-include-source"], setting := "include_source", flag := some "false" },
    { names := ["--github-token"], setting := "token" }]

/-- Reads what `set-config` is to set. -/
def settingsUpdates (arguments : List String) : Except UsageError (Settings.Sections Empty) := do
  let p ← Command.parse setConfigSpecs true arguments
  let importDepth ← count? p "import_depth"
  let callDepth ← count? p "call_depth"
  let timeout ← timeout? p "timeout"
  let _ ← exactly 0 p
  let analysis : List (String × Settings.Toml.Value) :=
    (importDepth.map fun n => ("import_depth", Settings.Value.int n)).toList ++
      (callDepth.map fun n => ("call_depth", Settings.Value.int n)).toList ++
      (timeout.map fun x => ("timeout", Settings.Value.real x)).toList ++
      ((p.last? "include_source").map fun s =>
        ("include_source", Settings.Value.bool (s == "true"))).toList
  let github := ((p.last? "token").map fun s => ("token", Settings.Value.text s)).toList
  return (if analysis.isEmpty then [] else [("analysis", analysis)]) ++
    (if github.isEmpty then [] else [("github", github)])

/-- `set-config`. -/
def setConfig (place : Place) (level : Nat) (updates : Settings.Sections Empty) : Outcome :=
  let ending (e : Ending) (files : Files) : Outcome :=
    { ending := e, logLevel := level, files := files }
  if updates.isEmpty then
    ending (.usage (.badParameter "Nothing to set. Pass at least one option.")) place.files
  else
    match Settings.file? place.vars with
    | none => ending .brokenOff place.files
    | some path =>
      let saving := Settings.save Settings.Toml.format place.files path updates
      match saving.result with
      | .ok () =>
        { ending (.exit 0) saving.files with
          echoed := "Configuration saved to " ++ path.toText ++ "\n" }
      | .error (.file e) => ending (.file e) saving.files
      | .error (.notATable _) => ending .badSettings saving.files
      | .error (.unreadable fault) => ending (.unreadable fault) saving.files
      | .error (.unwritable fault) => ending (.unwritable fault) saving.files

/-! ### The program -/

/-- The options in front of the command. -/
def programSpecs : List OptionSpec :=
  [{ names := ["--version", "-v"], setting := "version", flag := some "" },
    { names := ["--verbose"], setting := "verbose", flag := some "" },
    { names := ["--debug"], setting := "debug", flag := some "" }]

/-- The commands there are. -/
def names : List String := ["analyze", "extract", "show-config", "set-config"]

/-- Works off a command of a known name. -/
def runNamed (place : Place) (level : Nat) (name : String) (arguments : List String) : Outcome :=
  let refuse (e : UsageError) : Outcome :=
    { ending := .usage e, logLevel := level, files := place.files }
  if name = "analyze" then
    match AnalyzeRequest.parse place arguments with
    | .error e => refuse e
    | .ok request => analyze place level request
  else if name = "extract" then
    match ExtractRequest.parse place arguments with
    | .error e => refuse e
    | .ok request => extract place level request
  else if name = "show-config" then
    match (parse [] true arguments).bind (exactly 0) with
    | .error e => refuse e
    | .ok _ => showConfig place level
  else
    match settingsUpdates arguments with
    | .error e => refuse e
    | .ok updates => setConfig place level updates

/-- Whether a name that is no command's looks like an option: it starts with neither letter nor
digit. -/
def looksLikeOption (name : String) : Bool :=
  name.toList.head?.any fun c => c == '_' || !isWord c

/-- Ends a command line early: it is refused, or asks for the version only.  Without either, the
answer is what it says. -/
def programOptions (place : Place) (arguments : List String) : Outcome ⊕ Parsed :=
  let ending (e : Ending) : Outcome :=
    { ending := e, logLevel := defaultLogLevel, files := place.files }
  match parse programSpecs false arguments with
  | .error e => .inl (ending (.usage e))
  | .ok p =>
    if p.has "version" then
      .inl { ending (.exit 0) with echoed := "SolGraph CLI v" ++ version ++ "\n" }
    else .inr p

/-- Refuses a command line without a known command.  What looks like an option where the command
should be is taken for one first. -/
def refuseCommand (place : Place) (arguments : List String) : Outcome :=
  let refused : Outcome :=
    { ending := .usage .misuse, logLevel := defaultLogLevel, files := place.files }
  if arguments.head?.any looksLikeOption then
    match programOptions place arguments with
    | .inl outcome => outcome
    | .inr _ => refused
  else refused

/-- Works off a command line. -/
def run (place : Place) (arguments : List String) : Outcome :=
  match programOptions place arguments with
  | .inl outcome => outcome
  | .inr p =>
    match p.arguments with
    | name :: rest =>
      if names.contains name then
        let level :=
          if p.has "debug" then 10 else if p.has "verbose" then 20 else defaultLogLevel
        runNamed place level name rest
      else refuseCommand place (name :: rest)
    | [] => refuseCommand place []

end CallAtlas.Command
