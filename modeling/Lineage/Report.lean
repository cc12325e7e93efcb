import Lineage.CommandLine.Settings
import Lineage.Completion
import Lineage.Config
import Lineage.Files.Tree
import Lineage.Json.Reader
import Lineage.Session.Operation
import Lineage.Text

/-!
# Reports

What a query has found, with the diagnostics and the counters of the session that found it; or why
the program cannot answer it, as a chain of causes from the outermost to the innermost.
-/

namespace Lineage

open Json

inductive Failure where
  | configUnread (path : String) (fault : FileFault)
  | configMalformed (error : ReadError)
  | configFileMalformed (path : String) (error : ReadError)
  | noIndex
  | indexUnread (path : String) (fault : FileFault)
  | indexMalformed (path : String) (error : ReadError)
  | unknownClass (name : String)
  deriving DecidableEq

/-- A link of a chain of causes. -/
inductive Cause where
  | text (s : String)
  | json (error : ReadError)
  deriving DecidableEq

def Cause.message : Cause → String
  | text s => s
  | json error => error.message

namespace Failure

def headline : Failure → String
  | configUnread path _ => "failed to read config: " ++ path
  | configMalformed _ => "invalid nomina.json"
  | configFileMalformed path _ => "failed to parse config: " ++ path
  | noIndex => "no index snapshot given; pass --index or set \"index\" in nomina.json"
  | indexUnread path _ => "failed to read index snapshot " ++ path
  | indexMalformed path _ => "failed to parse index snapshot " ++ path
  | unknownClass name => "unknown class '" ++ name ++ "'"

def causes : Failure → List Cause
  | configUnread _ fault => [.text fault.message]
  | configMalformed error => [.json error]
  | configFileMalformed _ error => [.text (configMalformed error).headline, .json error]
  | noIndex => []
  | indexUnread _ fault => [.text fault.message]
  | indexMalformed _ error => [.json error]
  | unknownClass _ => []

/-- The lines of a text, the first after `first` and the others after `rest`. -/
def indent (first rest : String) (s : String) : List String :=
  match Text.lines s with
  | [] => []
  | line :: lines => (first ++ line) :: lines.map (rest ++ ·)

/-- The mark of the cause number `n`, five places wide. -/
def mark (n : Nat) : String :=
  let digits := toString n
  String.ofList (List.replicate (5 - digits.length) ' ') ++ digits ++ ": "

def causeLines : List Cause → List String
  | [] => []
  | [cause] => indent "    " "    " cause.message
  | causes => (causes.mapIdx fun n cause => indent (mark n) "       " cause.message).flatten

def lines (f : Failure) : List String :=
  let head := Text.lines ("Error: " ++ f.headline)
  if f.causes.isEmpty then head else head ++ ["", "Caused by:"] ++ causeLines f.causes

end Failure

/-! ## Reports -/

inductive Finding where
  | chain (names : List String)
  | field (f : Option FieldDef)
  | method (m : Option MethodDef)
  | types (ts : Option TypeSet)
  | candidates (entries : List Candidate)
  deriving DecidableEq

def Finding.isFound : Finding → Bool
  | chain names => !names.isEmpty
  | field f => f.isSome
  | method m => m.isSome
  | types ts => ts.isSome
  | candidates entries => !entries.isEmpty

structure Report where
  finding : Finding
  diagnostics : List Diagnostic
  stats : Stats
  deriving DecidableEq

def Report.exitCode (r : Report) : Nat := if r.finding.isFound then 0 else 1

namespace Query

/-- All queries of the command line belong to this project. -/
def project : Nat := 0

def context (o : Options) : Context := ⟨project, o.scope⟩

def find (o : Options) (s : Session) (root : Root) : Query → Finding × Session
  | chain _ => (s.superChain root).map .chain id
  | field _ name => (s.findField root name).map .field id
  | method _ name => (s.findMethod root name).map .method id
  | fieldTypes _ name => (s.fieldTypes root name).map .types id
  | complete _ typed asField =>
    (s.collect root (.ofTyped o.caseSensitive typed) asField #[]).map
      (fun h => .candidates h.entries.toList) id

def reportOn (o : Options) (catalog : Catalog) (r : ClassRecord) (q : Query) :
    Report × Array Event :=
  let s := Session.start catalog (context o) o.limit
  let (finding, s) := q.find o s (.node (.ofRecord r))
  (⟨finding, s.diagnostics, s.stats⟩, s.log)

def run (o : Options) (catalog : Catalog) (q : Query) :
    Except Failure Report × Array Event :=
  let opening := #[Event.queryStarted q.className]
  match catalog.class? q.className o.scope with
  | none => (.error (.unknownClass q.className), opening)
  | some r =>
    let (report, log) := q.reportOn o catalog r
    (.ok report, opening ++ log)

end Query

end Lineage
