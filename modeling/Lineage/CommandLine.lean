import Lineage.CommandLine.Settings

/-!
# The command line

Options, a command with its words, and options again. Most options may stand on either side of the
command. Words are taken from left to right. A value that is a word of its own is looked at only
when the next option or word has been recognised, so a word that is not understood comes before a
value that is wrong.
-/

namespace Lineage.CommandLine

inductive Command where
  | chain
  | field
  | method
  | fieldTypes
  | complete
  deriving DecidableEq

/-- The words after a command's name that are no options. -/
def Command.arity : Command → Nat
  | chain | complete => 1
  | field | method | fieldTypes => 2

/-- The query that a command and its words stand for; `none` if there are too few words. -/
def Command.query? (s : Settings) : Command → List String → Option Query
  | chain, [c] => some (.chain c)
  | field, [c, name] => some (.field c name)
  | method, [c, name] => some (.method c name)
  | fieldTypes, [c, name] => some (.fieldTypes c name)
  | complete, [c] => some (.complete c (s.typed.getD "") s.asField)
  | _, _ => none

/-- A word that ends the options before it. -/
inductive Turn where
  | command (c : Command)
  | help
  deriving DecidableEq

def Turn.ofName? : String → Option Turn
  | "chain" => some (.command .chain)
  | "field" => some (.command .field)
  | "method" => some (.command .method)
  | "field-type" => some (.command .fieldTypes)
  | "complete" => some (.command .complete)
  | "help" => some .help
  | _ => none

inductive Switch where
  | value (o : ValueOption)
  | flag (o : FlagOption)
  | help
  | version
  deriving DecidableEq

inductive Side where
  | before
  | after (c : Command)
  deriving DecidableEq

namespace Side

def arity : Side → Nat
  | before => 0
  | after c => c.arity

def commonSwitch? : String → Option Switch
  | "config" => some (.value .config)
  | "index" => some (.value .index)
  | "scope" => some (.value .scope)
  | "maxChainDepth" | "max-chain-depth" => some (.value .limit)
  | "ignoreCase" | "ignore-case" => some (.flag .ignoreCase)
  | "format" => some (.value .format)
  | "stats" => some (.flag .stats)
  | "help" => some .help
  | _ => none

def ownSwitch? : Side → String → Option Switch
  | before, "version" => some .version
  | after .complete, "prefix" => some (.value .typed)
  | after .complete, "asField" => some (.flag .asField)
  | after .complete, "as-field" => some (.flag .asField)
  | _, _ => none

def longSwitch? (side : Side) (name : String) : Option Switch :=
  (commonSwitch? name).or (side.ownSwitch? name)

def shortSwitch? : Side → Char → Option Switch
  | _, 'c' => some (.value .config)
  | _, 'i' => some (.value .index)
  | _, 'h' => some .help
  | before, 'V' => some .version
  | _, _ => none

def turn? : Side → String → Option Turn
  | before, word => Turn.ofName? word
  | after _, _ => none

/-- What is wrong with a word too many; `plainOnly` says that it stands after two dashes. -/
def surplus (plainOnly : Bool) (word : String) : Side → Refusal
  | before => if plainOnly && (Turn.ofName? word).isSome then .unknownWord else .unknownCommand
  | after _ => .unknownWord

end Side

/-! ## Scanning a side -/

structure Scan where
  settings : Settings := {}
  /-- The last option, if it takes a value and its value has not been looked at. -/
  pending : Option (ValueOption × Option String) := none
  words : List String := []
  /-- Two dashes have been met. -/
  plainOnly : Bool := false

namespace Scan

def awaiting? (s : Scan) : Option ValueOption :=
  match s.pending with
  | some (o, none) => some o
  | _ => none

/-- Looks at the value of the last option. -/
def settle (s : Scan) : Except Refusal Settings :=
  match s.pending with
  | none => .ok s.settings
  | some (_, none) => .error .badValue
  | some (o, some value) => s.settings.give o value

def await (s : Scan) (o : ValueOption) : Except Refusal Scan := do
  return { s with settings := ← s.settle, pending := some (o, none) }

def give (s : Scan) (o : ValueOption) (value : String) : Except Refusal Scan := do
  return { s with settings := ← (← s.settle).give o value, pending := none }

def switch (s : Scan) (o : Switch) : Except Refusal Scan :=
  match o with
  | .value o => s.await o
  | .flag o => do return { s with settings := ← (← s.settle).raise o, pending := none }
  | .help => do
    let _ ← s.settle
    throw .helpWanted
  | .version => do
    let _ ← s.settle
    throw .versionWanted

def long (side : Side) (s : Scan) (name : String) (value : Option String) :
    Except Refusal Scan :=
  match side.longSwitch? name, value with
  | none, _ => .error .unknownWord
  | some o, none => s.switch o
  | some (.value o), some value => s.give o value
  | some _, some _ => .error .unwantedValue

/-- The value behind the letter of an option. -/
def attached : List Char → String
  | '=' :: cs => String.ofList cs
  | cs => String.ofList cs

/-- Options by their letters; the first that takes a value takes all that follows. -/
def short (side : Side) (s : Scan) : List Char → Except Refusal Scan
  | [] => .ok s
  | c :: cs =>
    match side.shortSwitch? c with
    | none => .error .unknownWord
    | some (.value o) => if cs.isEmpty then s.await o else s.give o (attached cs)
    | some o => do
      let s ← s.switch o
      s.short side cs

def plain (side : Side) (s : Scan) (word : String) : Except Refusal Scan :=
  if s.words.length < side.arity then do
    return { s with settings := ← s.settle, pending := none, words := s.words ++ [word] }
  else .error (side.surplus s.plainOnly word)

def take (side : Side) (s : Scan) (word : String) : Except Refusal Scan :=
  if s.plainOnly then s.plain side word
  else match Word.ofString word with
    | .divider => .ok { s with plainOnly := true }
    | .long name value => s.long side name value
    | .short letters => s.short side letters
    | .plain =>
      match s.awaiting? with
      | some o => .ok { s with pending := some (o, some word) }
      | none => s.plain side word

/-- The word at which the side ends, unless the word is a value. -/
def turn? (side : Side) (s : Scan) (word : String) : Option Turn :=
  if s.plainOnly || s.awaiting?.isSome then none else side.turn? word

/-- Takes words up to the end of the side, with what ended it and the words after that. -/
def run (side : Side) (s : Scan) : List String → Except Refusal (Scan × Option (Turn × List String))
  | [] => .ok (s, none)
  | word :: words =>
    match s.turn? side word with
    | some turn => .ok (s, some (turn, words))
    | none => do
      let s ← s.take side word
      s.run side words

end Scan

structure Request where
  settings : Settings
  query : Query
  deriving DecidableEq

namespace Request

def format (r : Request) : Format := r.settings.format.getD .text

/-- Help is shown about one command or about all. -/
def helpAbout : List String → Refusal
  | [] => .helpWanted
  | [name] => if (Turn.ofName? name).isSome then .helpWanted else .unknownCommand
  | _ => .unknownCommand

def withoutCommand (s : Settings) : Refusal :=
  if s = {} then .nothingGiven else .missingCommand

def ofSide (c : Command) (words : List String) : Except Refusal (Query × Settings) := do
  let (s, _) ← ({} : Scan).run (.after c) words
  let settings ← s.settle
  match c.query? settings s.words with
  | some query => return (query, settings)
  | none => throw .missingWord

def ofWords (words : List String) : Except Refusal Request := do
  let (s, turn) ← ({} : Scan).run .before words
  match turn with
  | some (.command c, rest) =>
    let (query, inner) ← ofSide c rest
    return ⟨inner.within (← s.settle), query⟩
  | some (.help, rest) => throw (helpAbout rest)
  | none => throw (withoutCommand (← s.settle))

end Request

end Lineage.CommandLine
