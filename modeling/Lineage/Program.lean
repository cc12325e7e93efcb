import Lineage.CommandLine
import Lineage.Files.Tree
import Lineage.Log
import Lineage.Report
import Lineage.Report.Render
import Lineage.Snapshot

/-!
# The program

What a run of the program leaves behind: an exit code, its output, its messages and its log. The
output goes to a pipe or a file as well as to a terminal and has styles only for the latter.
-/

namespace Lineage

open CommandLine (Refusal Request Settings)

namespace Invocation

variable {m : Type → Type} [Monad m] (files : Files m) (workDir : String)

/-- The configuration file: the one that is named, or the one that lies in the working directory. -/
def configPath? (s : Settings) : m (Option String) :=
  match s.config with
  | some path => return some (Path.join workDir path)
  | none => do
    let path := Path.join workDir Config.fileName
    return if ← files.isFile path then some path else none

def loadConfig (path : String) : m (Except Failure Config) := do
  match ← files.read path with
  | .error fault => return .error (.configUnread path fault)
  | .ok text => return (Config.ofText text).mapError (.configFileMalformed path)

def settle (s : Settings) (config : Config) (configDir : String) : Except Failure Options :=
  match Options.resolve? s config configDir workDir with
  | some options => .ok options
  | none => .error .noIndex

def loadOptions (s : Settings) : m (Except Failure Options) := do
  match ← configPath? files workDir s with
  | none => return settle workDir s {} workDir
  | some path =>
    match ← loadConfig files path with
    | .error e => return .error e
    | .ok config => return settle workDir s config ((Path.parent? path).getD workDir)

def loadSnapshot (path : String) : m (Except Failure Snapshot) := do
  match ← files.read path with
  | .error fault => return .error (.indexUnread path fault)
  | .ok text => return (Snapshot.ofText text).mapError (.indexMalformed path)

/-- Runs the request's query, with the events of loading and querying. -/
def run (r : Request) : m (Except Failure Report × Array Event) := do
  match ← loadOptions files workDir r.settings with
  | .error e => return (.error e, #[])
  | .ok options =>
    match ← loadSnapshot files options.index with
    | .error e => return (.error e, #[])
    | .ok snapshot =>
      let (building, index) := snapshot.build
      let loaded := Event.snapshotLoaded options.index index.classCount
      let (report, querying) := r.query.run options index.catalog
      return (report, building.push loaded ++ querying)

end Invocation

structure Outcome where
  exitCode : Nat
  output : String := ""
  /-- The lines for the user, apart from the log. -/
  messages : List String := []
  log : Array Event := #[]

structure Terminals where
  output : Bool := false
  messages : Bool := false

namespace Program

def versionText : String := "nomina 0.1.0\n"

def helpText : String := Text.unlines [
  "Query class hierarchies and members of Lua-style class annotations",
  "",
  "Usage: nomina [OPTIONS] <COMMAND>",
  "",
  "Commands:",
  "  chain <CLASS>",
  "  field <CLASS> <NAME>",
  "  method <CLASS> <NAME>",
  "  field-type <CLASS> <NAME>",
  "  complete <CLASS> [--prefix <PREFIX>] [--asField]",
  "  help [COMMAND]",
  "",
  "Options:",
  "  -c, --config <CONFIG>",
  "  -i, --index <INDEX>",
  "      --scope <project|projectAndLibraries>",
  "      --maxChainDepth <LEVELS>",
  "      --ignoreCase",
  "      --format <text|json>",
  "      --stats",
  "  -h, --help",
  "  -V, --version"]

def mistake : Refusal → String
  | .unknownCommand => "unrecognized subcommand"
  | .missingCommand => "a subcommand is required"
  | .missingWord => "a required argument is missing"
  | .unknownWord => "unexpected argument"
  | .repeatedOption => "an option is given more than once"
  | .badValue | .badNumber => "invalid value for an option"
  | .unwantedValue => "unexpected value for an option"
  | .nothingGiven | .helpWanted | .versionWanted => ""

def refuse (r : Refusal) : Outcome :=
  match r with
  | .helpWanted => { exitCode := r.exitCode, output := helpText }
  | .versionWanted => { exitCode := r.exitCode, output := versionText }
  | .nothingGiven => { exitCode := r.exitCode, messages := Text.lines helpText }
  | r => { exitCode := r.exitCode, messages := ["error: " ++ mistake r] }

def messagesOf (color : Bool) (withStats : Bool) (r : Report) : List String :=
  r.diagnostics.map (Diagnostic.line color) ++ if withStats then [r.stats.line] else []

def conclude (terminals : Terminals) (request : Request) (log : Array Event) :
    Except Failure Report → Outcome
  | .error failure => { exitCode := 1, messages := failure.lines, log }
  | .ok report =>
    { exitCode := report.exitCode
      output := report.render request.format terminals.output
      messages := (messagesOf terminals.messages request.settings.stats report).flatMap
        Text.lines
      log }

def run {m : Type → Type} [Monad m] (files : Files m) (workDir : String) (terminals : Terminals)
    (words : List String) : m Outcome := do
  match Request.ofWords words with
  | .error refusal => return refuse refusal
  | .ok request =>
    let (report, log) ← Invocation.run files workDir request
    return conclude terminals request log report

/-- What is left behind if the log filter is broken: nothing else is looked at. -/
def brokenFilter : Outcome :=
  { exitCode := 101, messages := [Log.DirectiveFault.insideCharacter.message] }

def runLogged {m : Type → Type} [Monad m] (files : Files m) (workDir : String)
    (terminals : Terminals) (log : Option Log.Setup) (words : List String) : m Outcome :=
  if log.any (·.filter.isBroken) then return brokenFilter
  else run files workDir terminals words

end Program

end Lineage
