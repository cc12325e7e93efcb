import Lineage.Decimal
import Lineage.Declaration

/-!
# Words and options

What a single word of a command line looks like, before it is known which options there are, and what
has been given on one side of the command. An option may be given once on a side.
-/

namespace Lineage

inductive Format where
  | text
  | json
  deriving DecidableEq

inductive Query where
  | chain (className : String)
  | field (className name : String)
  | method (className name : String)
  | fieldTypes (className name : String)
  | complete (className typed : String) (asField : Bool)
  deriving DecidableEq

def Query.className : Query → String
  | chain c => c
  | field c _ => c
  | method c _ => c
  | fieldTypes c _ => c
  | complete c _ _ => c

namespace CommandLine

inductive Word where
  /-- Two dashes, after which every word stands for itself. -/
  | divider
  /-- Two dashes and a name, and the text after an equals sign. -/
  | long (name : String) (value : Option String)
  /-- One dash and what follows it, which is not empty. -/
  | short (letters : List Char)
  | plain
  deriving DecidableEq

namespace Word

def splitAtEquals (cs : List Char) : String × Option String :=
  match cs.dropWhile (· ≠ '=') with
  | [] => (String.ofList cs, none)
  | _ :: value => (String.ofList (cs.takeWhile (· ≠ '=')), some (String.ofList value))

def ofString (s : String) : Word :=
  match s.toList with
  | ['-', '-'] => divider
  | '-' :: '-' :: cs => long (splitAtEquals cs).1 (splitAtEquals cs).2
  | '-' :: c :: cs => short (c :: cs)
  | _ => plain

example : ofString "--scope=a=b" = long "scope" (some "a=b") := by decide
example : ofString "-" = plain := by decide

end Word

/-- Why a command line is not a request: what it asks to be shown, or what is wrong with it. -/
inductive Refusal where
  | helpWanted
  | versionWanted
  | nothingGiven
  | missingCommand
  | unknownCommand
  | missingWord
  /-- An option that is not known here, or a word too many. -/
  | unknownWord
  | repeatedOption
  /-- An option without its value, or with a value that it does not have. -/
  | badValue
  | badNumber
  | unwantedValue
  deriving DecidableEq

/-- Help and version are shown at the user's wish; all else is a mistake. -/
def Refusal.exitCode : Refusal → Nat
  | helpWanted | versionWanted => 0
  | _ => 2

inductive ValueOption where
  | config
  | index
  | scope
  | limit
  | format
  | typed
  deriving DecidableEq

inductive FlagOption where
  | ignoreCase
  | stats
  | asField
  deriving DecidableEq

structure Settings where
  config : Option String := none
  index : Option String := none
  scope : Option Scope := none
  limit : Option UInt32 := none
  format : Option Format := none
  typed : Option String := none
  ignoreCase : Bool := false
  stats : Bool := false
  asField : Bool := false
  deriving DecidableEq

def readPath (value : String) : Except Refusal String :=
  if value = "" then .error .badValue else .ok value

def readScope (value : String) : Except Refusal Scope :=
  match value.toLower with
  | "project" => .ok .project
  | "projectandlibraries" | "project-and-libraries" | "all" => .ok .projectAndLibraries
  | _ => .error .badValue

def readFormat : String → Except Refusal Format
  | "text" => .ok .text
  | "json" => .ok .json
  | _ => .error .badValue

/-- A number with or without a sign; of those below zero there is only zero itself. -/
def readSigned : List Char → Option Nat
  | '-' :: digits => (Decimal.natural? digits).filter (· == 0)
  | cs => Decimal.unsigned? cs

def readLimit (value : String) : Except Refusal UInt32 :=
  match readSigned value.toList with
  | some n => if n < UInt32.size then .ok (UInt32.ofNat n) else .error .badNumber
  | none => .error .badNumber

/-- Fills a place that has to be empty. -/
def fill {α : Type} (place : Option α) (value : Except Refusal α) : Except Refusal (Option α) :=
  if place.isSome then .error .repeatedOption else value.map some

def raiseFlag (flag : Bool) : Except Refusal Bool :=
  if flag then .error .repeatedOption else .ok true

namespace Settings

def give (s : Settings) (o : ValueOption) (value : String) : Except Refusal Settings :=
  match o with
  | .config => do return { s with config := ← fill s.config (readPath value) }
  | .index => do return { s with index := ← fill s.index (readPath value) }
  | .scope => do return { s with scope := ← fill s.scope (readScope value) }
  | .limit => do return { s with limit := ← fill s.limit (readLimit value) }
  | .format => do return { s with format := ← fill s.format (readFormat value) }
  | .typed => do return { s with typed := ← fill s.typed (.ok value) }

def raise (s : Settings) : FlagOption → Except Refusal Settings
  | .ignoreCase => do return { s with ignoreCase := ← raiseFlag s.ignoreCase }
  | .stats => do return { s with stats := ← raiseFlag s.stats }
  | .asField => do return { s with asField := ← raiseFlag s.asField }

/-- What is given on either side; where it is given on both, `inner` counts. -/
def within (inner outer : Settings) : Settings where
  config := inner.config.or outer.config
  index := inner.index.or outer.index
  scope := inner.scope.or outer.scope
  limit := inner.limit.or outer.limit
  format := inner.format.or outer.format
  typed := inner.typed.or outer.typed
  ignoreCase := inner.ignoreCase || outer.ignoreCase
  stats := inner.stats || outer.stats
  asField := inner.asField || outer.asField

end Settings

end CommandLine

end Lineage
