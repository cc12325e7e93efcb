import Lineage.Completion
import Lineage.Session

/-!
# Operations of a session

Everything a host can ask of a session as one type of operations and one of answers, so that a
request is a list of operations. A member is looked for level by level, and the nearest declaration
counts. "Not found" is `none`, whether the type or the member is missing.
-/

namespace Lineage.Session

def findField (s : Session) (root : Root) (name : String) : Option FieldDef × Session :=
  let (w, s) := s.walk root fun level => s.catalog.field? level.name name s.scope
  (w.found, s.emit (.fieldSought root.name name (w.found.map FieldDef.className)))

/-- The nearest method with this name. On each level an instance method comes before a static
one. -/
def findMethod (s : Session) (root : Root) (name : String) : Option MethodDef × Session :=
  let (w, s) := s.walk root fun level =>
    (s.catalog.method? level.name name s.scope).or (s.catalog.static? level.name name s.scope)
  (w.found, s.emit (.methodSought root.name name
    (w.found.map fun m => (m.className, m.isStatic))))

/-- The types of the nearest field with this name. A field without types hides those above it. -/
def fieldTypes (s : Session) (root : Root) (name : String) : Option TypeSet × Session :=
  let (w, s) := s.walk root fun level =>
    (s.catalog.field? level.name name s.scope).map FieldDef.types
  (w.found.join, s)

inductive Operation where
  | resolveClass (name : String)
  | takeDiagnostics
  | superType (root : Root)
  | superChain (root : Root)
  | walk (root : Root) (visit : Level → Option String)
  | findField (root : Root) (name : String)
  | findMethod (root : Root) (name : String)
  | fieldTypes (root : Root) (name : String)
  | collect (root : Root) (matcher : Matcher) (asField : Bool)
  | collectFields (root : Root) (matcher : Matcher)
  | collectStatics (root : Root) (matcher : Matcher)
  | collectMethods (root : Root) (matcher : Matcher) (asField : Bool)

inductive Answer where
  | node (n : Option TypeNode)
  | diagnostics (ds : List Diagnostic)
  | chain (names : List String)
  | walk (levels : List Level) (found : Option String)
  | field (f : Option FieldDef)
  | method (m : Option MethodDef)
  | types (ts : Option TypeSet)
  | candidates (count : Nat) (entries : List Candidate)
  deriving DecidableEq

def Answer.ofHarvest (h : Harvest) : Answer := .candidates h.count h.entries.toList

def perform (s : Session) : Operation → Answer × Session
  | .resolveClass name => (s.resolveClass name).map .node id
  | .takeDiagnostics => s.takeDiagnostics.map .diagnostics id
  | .superType root => (s.parentOf root).map .node id
  | .superChain root => (s.superChain root).map .chain id
  | .walk root visit => (s.walk root visit).map (fun w => .walk w.levels w.found) id
  | .findField root name => (s.findField root name).map .field id
  | .findMethod root name => (s.findMethod root name).map .method id
  | .fieldTypes root name => (s.fieldTypes root name).map .types id
  | .collect root matcher asField => (s.collect root matcher asField #[]).map .ofHarvest id
  | .collectFields root matcher => (s.collectFields root matcher #[]).map .ofHarvest id
  | .collectStatics root matcher => (s.collectStatics root matcher #[]).map .ofHarvest id
  | .collectMethods root matcher asField =>
    (s.collectMethods root matcher asField #[]).map .ofHarvest id

def performAll (s : Session) (ops : List Operation) : Session :=
  ops.foldl (fun s op => (s.perform op).2) s

end Lineage.Session
