import Lineage.Json.Value
import Lineage.Log.Filter
import Lineage.Text.Characters

/-!
# Logs

The events of a run as log records. The environment tells whether there is a log at all, which
events it holds and in which form it is written.
-/

namespace Lineage.Log

open Json

inductive Form where
  | text
  | tree
  | json
  deriving DecidableEq

def Form.ofName (name : String) : Form :=
  let word := Text.lowercase (Text.trim name)
  if word = "tree" then tree else if word = "json" then json else text

def Form.word : Form → String
  | text => "text"
  | tree => "tree"
  | json => "json"

structure Setup where
  filter : Filter
  form : Form

/-- The variables that ask for a log; the first one that is set counts. -/
def filterVariables : List String := ["NOMINA_LOG", "RUST_LOG"]

def formVariable : String := "NOMINA_LOG_FORMAT"

def Setup.ofEnvironment? (lookup : String → Option String) : Option Setup :=
  (filterVariables.findSome? lookup).map fun directives =>
    ⟨.ofText directives, .ofName ((lookup formVariable).getD "")⟩

def Setup.complaints (s : Setup) : List String :=
  s.filter.skipped.map fun d => "ignoring `" ++ d.1 ++ "`: " ++ d.2.message

def fieldValue : Event.FieldValue → Value
  | .text s => .string s
  | .flag b => .bool b
  | .number n => .number n

def fieldEntries (r : Event.Record) : List (String × Value) :=
  r.valuedFields.map fun f => (f.1, fieldValue f.2)

def spanValue (span : Event.Record) : Value :=
  .object (fieldEntries span ++ [("name", .string span.message)])

/-- An event as a JSON object, inside a span if one is given. -/
def recordJson (span : Option Event.Record) (r : Event.Record) : Value :=
  let place := match span with
    | some span => [("span", spanValue span), ("spans", .array [spanValue span])]
    | none => []
  .object ([("level", .string r.level.text),
    ("fields", .object (("message", .string r.message) :: fieldEntries r)),
    ("target", .string r.target)] ++ place)

/-- The records of a list of events. A span that the filter notices is open from its opening on. -/
def records (f : Filter) (span : Option Event.Record) :
    List Event → List (Option Event.Record × Event.Record)
  | [] => []
  | e :: es =>
    if e.isSpan then records f ((some e.record).filter f.opens) es
    else
      let rest := records f span es
      if f.showsEvent span e.record then (span, e.record) :: rest else rest

def Setup.json (s : Setup) (events : List Event) : List Value :=
  (records s.filter none events).map fun r => recordJson r.1 r.2

def fieldText (f : String × Event.FieldValue) : String :=
  f.1 ++ "=" ++ (fieldValue f.2).text .compact

def recordLine (span : Option Event.Record) (r : Event.Record) : String :=
  let place := match span with
    | some span => " " ++ " ".intercalate (span.message :: span.valuedFields.map fieldText) ++ ":"
    | none => ""
  r.level.text ++ place ++ " " ++ r.target ++ ": " ++
    " ".intercalate (r.message :: r.valuedFields.map fieldText)

def Setup.lines (s : Setup) (events : List Event) : List String :=
  (records s.filter none events).map fun r =>
    match s.form with
    | .json => (recordJson r.1 r.2).text .compact
    | _ => recordLine r.1 r.2

end Lineage.Log
