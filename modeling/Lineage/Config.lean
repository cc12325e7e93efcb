import Lineage.CommandLine.Settings
import Lineage.Files.Tree
import Lineage.Snapshot
import Lineage.Text.Characters

/-!
# Configuration files and options

The settings of a project as they are written in its configuration file. Every setting may be left
out or be `null`. A key that names no setting is refused, so that a misspelt one is noticed.

The options of a query are what the command line and the configuration file say together. The
command line comes first, then the file, then the defaults.
-/

namespace Lineage

open Json

structure Config where
  /-- The path of the index snapshot, relative to the configuration file. -/
  index : Option String := none
  scope : Option Scope := none
  limit : Option UInt32 := none
  caseSensitive : Option Bool := none
  deriving DecidableEq

namespace Config

def fileName : String := "nomina.json"

def truthOfWord? (s : String) : Option Bool :=
  let word := Text.lowercase (Text.trim s)
  if word ∈ ["true", "1", "yes", "on"] then some true
  else if word ∈ ["false", "0", "no", "off"] then some false
  else none

/-- How deep containers may be nested inside a value of the file. -/
def nestingRoom : Nat := 126

def readTruth : Reader (Option Bool)
  | .null => .ok none
  | .bool b => .ok (some b)
  | .string s => do
    let s ← s.read
    match truthOfWord? s with
    | some b => return some b
    | none => throw (.notTruthWord s)
  | d => do
    d.check nestingRoom
    throw (.noAlternative "BoolOrString")

def shape : Shape Config where
  title := "struct NominaConfig"
  blank := {}
  slots := [
    .optional "index" (.optional (.text "path string")) fun index c => { c with index },
    .optional "scope" (.optional Scope.read) fun scope c => { c with scope },
    .optional "maxChainDepth" (.optional .word) fun limit c => { c with limit },
    .optional "caseSensitive" readTruth fun caseSensitive c => { c with caseSensitive }]
  isStrict := true

def ofText (text : String) : Except ReadError Config := Reader.ofText shape.read text

end Config

/-! ## Options -/

open CommandLine (Settings)

structure Options where
  index : String
  scope : Scope := .projectAndLibraries
  limit : Option UInt32 := none
  caseSensitive : Bool := true
  deriving DecidableEq

namespace Options

/-- The path of the index: the command line's is meant in the working directory, the file's in the
directory of the file. -/
def index? (s : Settings) (config : Config) (configDir workDir : String) : Option String :=
  (s.index.map (Path.join workDir)).or (config.index.map (Path.join configDir))

/-- The options, if an index is named somewhere. -/
def resolve? (s : Settings) (config : Config) (configDir workDir : String) : Option Options :=
  (index? s config configDir workDir).map fun index =>
    { index
      scope := (s.scope.or config.scope).getD .projectAndLibraries
      limit := s.limit.or config.limit
      caseSensitive := !s.ignoreCase && config.caseSensitive.getD true }

end Options

end Lineage
