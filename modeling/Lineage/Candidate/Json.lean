import Lineage.Declaration
import Lineage.Json.Value

/-!
# Completion candidates

A member as a completion offers it: what it is, the class that declares it, whether that is the
class asked about, and how a method is inserted when it is accepted.
-/

namespace Lineage

inductive MemberKind where
  | field
  | method
  | staticMethod
  deriving DecidableEq

/-- Is the member declared on the class asked about or on an ancestor? -/
inductive Standing where
  | own
  | inherited
  deriving DecidableEq

namespace Standing

def atDepth : Nat → Standing
  | 0 => own
  | _ + 1 => inherited

def isEmphasized : Standing → Bool
  | own => true
  | inherited => false

end Standing

inductive Insertion where
  | reference
  /-- As a call with a placeholder for each parameter. -/
  | call (params : List String)
  deriving DecidableEq

namespace Insertion

/-- The placeholder of the parameter at `i`, counted from 1. -/
def tabStop (i : Nat) (param : String) : String :=
  "$\x7b" ++ toString i ++ ":" ++ param ++ "\x7d"

def tabStops (params : List String) : List String :=
  params.mapIdx fun i param => tabStop (i + 1) param

def snippet (name : String) : Insertion → String
  | reference => name
  | call params => name ++ "(" ++ ", ".intercalate (tabStops params) ++ ")"

example : (call ["dx", "dy"]).snippet "move" = "move($\x7b1:dx\x7d, $\x7b2:dy\x7d)" := by decide

end Insertion

structure Candidate where
  name : String
  kind : MemberKind
  /-- The class that declares the member. -/
  owner : String
  standing : Standing
  insertion : Option Insertion := none
  deriving DecidableEq

namespace Candidate

def ofField (owner : String) (depth : Nat) (f : FieldDef) : Candidate where
  name := f.name
  kind := .field
  owner := owner
  standing := .atDepth depth

def ofStatic (owner : String) (depth : Nat) (m : MethodDef) : Candidate where
  name := m.name
  kind := .staticMethod
  owner := owner
  standing := .atDepth depth
  insertion := some (.call m.params)

/-- Instance methods are inserted by name if they are used as fields. -/
def ofMethod (asField : Bool) (owner : String) (depth : Nat) (m : MethodDef) : Candidate where
  name := m.name
  kind := .method
  owner := owner
  standing := .atDepth depth
  insertion := some (if asField then .reference else .call m.params)

end Candidate

open Json

def MemberKind.word : MemberKind → String
  | field => "field"
  | method => "method"
  | staticMethod => "staticMethod"

def Standing.word : Standing → String
  | own => "own"
  | inherited => "inherited"

def Insertion.toJson : Insertion → Value
  | reference => .object [("style", .string "asFieldReference")]
  | call params => .object [("style", .string "callTemplate"), ("params", .ofNames params)]

def Candidate.toJson (c : Candidate) : Value :=
  .object ([("name", .string c.name), ("kind", .string c.kind.word), ("owner", .string c.owner),
    ("origin", .string c.standing.word)] ++
    Value.optionalEntry "insertion" Insertion.toJson c.insertion)

end Lineage
