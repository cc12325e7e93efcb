import Lineage.Candidate.Json
import Lineage.Diagnostic.Json
import Lineage.Report
import Lineage.Snapshot
import Lineage.Text

/-!
# Reports as they are printed

Lines for a reader at a terminal, where what has not been found has no line; or one JSON object whose
`query` tells what kind of finding it holds, with the diagnostics if there are any.
-/

namespace Lineage

open Text (Style styledIf)

/-- A super chain as a staircase, two blanks for each level. -/
def chainLines (names : List String) : List String :=
  names.mapIdx fun depth name => String.ofList (List.replicate (2 * depth) ' ') ++ name

def FieldDef.line (f : FieldDef) : String :=
  f.className ++ "." ++ f.name ++
    match f.types with
    | some ts => ": " ++ ts.text
    | none => ""

/-- A colon stands before the name of an instance method, a point before that of a static one. -/
def MethodDef.line (m : MethodDef) : String :=
  m.className ++ (if m.isStatic then "." else ":") ++ m.name ++
    "(" ++ ", ".intercalate m.params ++ ")"

namespace Candidate

def label (c : Candidate) : String :=
  match c.insertion with
  | some insertion => insertion.snippet c.name
  | none => c.name

def kindLabel (c : Candidate) : String :=
  match c.kind with
  | .field => "field"
  | .method => "method"
  | .staticMethod => "static"

def labelStyles (c : Candidate) : List Style :=
  (if c.standing.isEmphasized then [.bold] else []) ++
    (if c.kind = .staticMethod then [.underlined] else [])

/-- The label, the kind and the owner, divided by tabs. -/
def line (color : Bool) (c : Candidate) : String :=
  styledIf color c.labelStyles c.label ++ "\t" ++ styledIf color [.dimmed] c.kindLabel ++ "\t" ++
    styledIf color [.dimmed] c.owner

end Candidate

def Finding.lines (color : Bool) : Finding → List String
  | chain names => chainLines names
  | field f => (f.map FieldDef.line).toList
  | method m => (m.map MethodDef.line).toList
  | types ts => (ts.map TypeSet.text).toList
  | candidates entries => entries.map (Candidate.line color)

def Finding.text (color : Bool) (f : Finding) : String := Text.unlines (f.lines color)

def Diagnostic.line (color : Bool) (d : Diagnostic) : String :=
  styledIf color [.bold, .yellow] "warning" ++ " " ++ d.codeText ++ ": " ++ d.message

def Stats.line (s : Stats) : String :=
  "super hops: " ++ toString s.superHops ++ ", class lookups: " ++ toString s.classLookups ++
    ", memo hits: " ++ toString s.memoHits

open Json

def Finding.entries : Finding → List (String × Value)
  | chain names => [("query", .string "chain"), ("chain", .ofNames names)]
  | field f => [("query", .string "field"), ("field", .ofOption FieldDef.toJson f)]
  | method m => [("query", .string "method"), ("method", .ofOption MethodDef.toJson m)]
  | types ts => [("query", .string "fieldType"), ("types", .ofOption TypeSet.toJson ts)]
  | candidates entries =>
    [("query", .string "complete"), ("entries", .array (entries.map Candidate.toJson))]

namespace Report

def diagnosticEntries (r : Report) : List (String × Value) :=
  if r.diagnostics.isEmpty then []
  else [("diagnostics", .array (r.diagnostics.map Diagnostic.toJson))]

def toJson (r : Report) : Value := .object (r.finding.entries ++ r.diagnosticEntries)

def render (format : Format) (color : Bool) (r : Report) : String :=
  match format with
  | .text => r.finding.text color
  | .json => r.toJson.text .indented ++ "\n"

end Report

end Lineage
