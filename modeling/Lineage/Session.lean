import Std.Data.TreeSet
import Lineage.Declaration
import Lineage.Diagnostic.Json
import Lineage.Index

/-!
# Sessions

The state of one request: the classes it has looked up, the diagnostics of the walks that were
cut short, counters and the log. Classes are looked up by name in the request's catalog, each at
most once.

A walk goes up the super chain of a root and shows every level to a visitor. It ends when the
visitor answers, when a level has no parent in the catalog, or when the guard refuses the next
level; a refusal is reported and the walk has no answer. A super chain is written by hand and may
come back to itself, so a guard remembers the names that a walk has entered and how many levels that
is. It refuses a name it has seen, and it refuses any name once the walk is as deep as the limit
allows.
-/

namespace Lineage

inductive ChainStep where
  | entered
  | cycle
  | depthExceeded
  deriving DecidableEq

namespace ChainStep

def isEntered : ChainStep → Bool
  | entered => true
  | _ => false

def isDenied (step : ChainStep) : Bool := !step.isEntered

end ChainStep

structure ChainGuard where
  visited : Std.TreeSet String := {}
  depth : Nat := 0
  maxDepth : Nat

namespace ChainGuard

/-- A guard that lets a walk have `limit` levels, and always one. -/
def new (limit : UInt32) : ChainGuard := { maxDepth := max 1 limit.toNat }

/-- A guard with the largest limit there is. -/
def unbounded : ChainGuard := new 0xFFFFFFFF

def ofLimit : Option UInt32 → ChainGuard
  | some limit => new limit
  | none => unbounded

def isVisited (g : ChainGuard) (name : String) : Bool := g.visited.contains name

/-- Tries to step onto `name`. A cycle is found before the limit is looked at, so that a loop
shorter than the limit is always told as a loop. -/
def enter (g : ChainGuard) (name : String) : ChainStep × ChainGuard :=
  if g.isVisited name then (.cycle, g)
  else if g.maxDepth ≤ g.depth then (.depthExceeded, g)
  else (.entered, { g with visited := g.visited.insert name, depth := g.depth + 1 })

/-- How many more levels the walk may have. -/
def room (g : ChainGuard) : Nat := g.maxDepth - g.depth

theorem room_lt_of_entered {g g' : ChainGuard} {name : String}
    (h : g.enter name = (.entered, g')) : g'.room < g.room := by
  unfold enter at h
  split at h
  · cases h
  · split at h
    · cases h
    · cases h
      simp only [room]
      omega

end ChainGuard

/-! ## Sessions -/

structure Stats where
  /-- Parents that walks have resolved. -/
  superHops : Nat := 0
  /-- Class look-ups that reached the catalog. -/
  classLookups : Nat := 0
  memoHits : Nat := 0
  deriving DecidableEq

structure Session where
  catalog : Catalog
  context : Context
  /-- The most levels a walk may have; without a limit as many as a guard can count. -/
  limit : Option UInt32 := none
  memo : Std.TreeMap String (Option TypeNode) := {}
  diagnostics : List Diagnostic := []
  stats : Stats := {}
  log : Array Event := #[]

/-- What a walk starts from: a type, or a mere name that has no parent. -/
inductive Root where
  | node (n : TypeNode)
  | detached (name : String)
  deriving DecidableEq

def Root.name : Root → String
  | node n => n.name
  | detached name => name

namespace Session

def start (catalog : Catalog) (context : Context) (limit : Option UInt32 := none) : Session where
  catalog := catalog
  context := context
  limit := limit.map (max 1)

def scope (s : Session) : Scope := s.context.scope

def emit (s : Session) (e : Event) : Session := { s with log := s.log.push e }

def report (s : Session) (d : Diagnostic) : Session :=
  if d ∈ s.diagnostics then s else { s with diagnostics := s.diagnostics ++ [d] }

/-- The diagnostics so far; the session goes on with none. -/
def takeDiagnostics (s : Session) : List Diagnostic × Session :=
  (s.diagnostics, { s with diagnostics := [] })

/-- The declared type with this name. `ask` is put to the catalog the first time; after that the
memory answers. -/
def resolveClassAsking {m : Type → Type} [Monad m]
    (ask : (name : String) → Scope → m (Option ClassRecord)) (s : Session) (name : String) :
    m (Option TypeNode × Session) :=
  match s.memo[name]? with
  | some known => pure (known, { s with stats.memoHits := s.stats.memoHits + 1 })
  | none => do
    let node := (← ask name s.scope).map TypeNode.ofRecord
    return (node, { s with
      memo := s.memo.insert name node
      stats.classLookups := s.stats.classLookups + 1
      log := s.log.push (.classLookup name node.isSome) })

def resolveClass (s : Session) (name : String) : Option TypeNode × Session :=
  Id.run (s.resolveClassAsking (fun name scope => pure (s.catalog.class? name scope)) name)

theorem resolveClass_eq (s : Session) (name : String) :
    s.resolveClass name =
      match s.memo[name]? with
      | some known => (known, { s with stats.memoHits := s.stats.memoHits + 1 })
      | none =>
        let node := (s.catalog.class? name s.scope).map TypeNode.ofRecord
        (node, { s with
          memo := s.memo.insert name node
          stats.classLookups := s.stats.classLookups + 1
          log := s.log.push (.classLookup name node.isSome) }) := by
  unfold resolveClass resolveClassAsking
  cases s.memo[name]? <;> rfl

/-- The immediate parent of a type, if it names one that can be resolved. -/
def superType (s : Session) (node : TypeNode) : Option TypeNode × Session :=
  match node.superName with
  | none => (none, s)
  | some parentName =>
    match s.resolveClass parentName with
    | (none, s) => (none, s.emit (.superMissing node.name parentName))
    | (some parent, s) => (some parent, s)

def parentOf (s : Session) : Root → Option TypeNode × Session
  | .node n => s.superType n
  | .detached _ => (none, s)

end Session

/-! ## Walks -/

structure Level where
  name : String
  depth : Nat
  deriving DecidableEq

def Level.isRoot (l : Level) : Bool := l.depth == 0

/-- The levels a walk has shown to its visitor, and the visitor's answer if it gave one. -/
structure Walk (β : Type) where
  levels : List Level
  found : Option β

namespace Session

def reportCycle (s : Session) (root reached : String) : Session :=
  (s.emit (.cyclicChain root reached)).report (.cyclic root reached)

def reportDepth (s : Session) (root reached : String) (limit : Nat) : Session :=
  (s.emit (.chainTooDeep root reached limit)).report (.tooDeep root limit)

def countHop (s : Session) : Session :=
  { s with stats.superHops := s.stats.superHops + 1 }

/-- The part of the walk from `root` that begins with stepping onto `next`. -/
def climb {β : Type} (visit : Level → Option β) (root : String) (s : Session)
    (guard : ChainGuard) (next : Root) : Walk β × Session :=
  match _h : guard.enter next.name with
  | (.cycle, _) => (⟨[], none⟩, s.reportCycle root next.name)
  | (.depthExceeded, _) => (⟨[], none⟩, s.reportDepth root next.name guard.maxDepth)
  | (.entered, guard') =>
    let level : Level := ⟨next.name, guard'.depth - 1⟩
    match visit level with
    | some answer => (⟨[level], some answer⟩, s)
    | none =>
      match s.parentOf next with
      | (none, s) => (⟨[level], none⟩, s)
      | (some parent, s) =>
        let (rest, s) := climb visit root s.countHop guard' (.node parent)
        (⟨level :: rest.levels, rest.found⟩, s)
  termination_by guard.room
  decreasing_by exact ChainGuard.room_lt_of_entered (by assumption)

def walk {β : Type} (s : Session) (root : Root) (visit : Level → Option β) : Walk β × Session :=
  climb visit root.name s (.ofLimit s.limit) root

def superChain (s : Session) (root : Root) : List String × Session :=
  let (w, s) := s.walk root fun _ => (none : Option Unit)
  (w.levels.map Level.name, s)

end Session

end Lineage
