/-!
# Declarations

The records a project's scanner produces: classes with an optional parent name, fields and
methods. A member names the class it is declared on; nothing requires that class to have a record
of its own. A declaration belongs to the project or to a library, and a request sees the project
alone or the project with its libraries.

A type node is the identity of a type: a class that was declared, the table bound by a local
declaration, or a global table met by name. Only a declared class can name a parent. A node holds no
reference to its parent; the parent is looked up by name each time.
-/

namespace Lineage

/-- Where a declaration lives relative to the project being analysed. -/
inductive Origin where
  | project
  | library
  deriving DecidableEq

inductive Scope where
  | project
  | projectAndLibraries
  deriving DecidableEq

def Origin.word : Origin → String
  | project => "project"
  | library => "library"

def Origin.known : List (String × Origin) :=
  [("project", .project), ("library", .library)]

def Scope.word : Scope → String
  | project => "project"
  | projectAndLibraries => "projectAndLibraries"

def Scope.known : List (String × Scope) :=
  [("project", .project), ("projectAndLibraries", .projectAndLibraries)]

theorem Origin.lookup_word (o : Origin) : known.lookup o.word = some o := by
  cases o <;> decide

theorem Scope.lookup_word (s : Scope) : known.lookup s.word = some s := by
  cases s <;> decide

def Scope.accepts : Scope → Origin → Bool
  | .project, .library => false
  | _, _ => true

/-- What a request carries through every look-up: its project and what it may see. -/
structure Context where
  project : Nat
  scope : Scope := .projectAndLibraries
  deriving DecidableEq

@[simp] theorem Scope.accepts_projectAndLibraries (o : Origin) :
    Scope.projectAndLibraries.accepts o = true := rfl

@[simp] theorem Scope.accepts_project (o : Origin) :
    Scope.project.accepts o = decide (o = .project) := by
  cases o <;> rfl

/-! ## Sets of types -/

structure TypeSet where
  names : List String
  nodup : names.Nodup := by decide
  deriving DecidableEq

namespace TypeSet

def empty : TypeSet := { names := [] }

def contains (s : TypeSet) (name : String) : Bool := s.names.contains name

def size (s : TypeSet) : Nat := s.names.length

def isEmpty (s : TypeSet) : Bool := s.names.isEmpty

/-- Adds `name` at the end unless it is there; tells whether it was new. -/
def insert (s : TypeSet) (name : String) : Bool × TypeSet :=
  if h : name ∈ s.names then (false, s)
  else (true, ⟨s.names ++ [name], by
    rw [List.nodup_append]
    refine ⟨s.nodup, by simp, ?_⟩
    intro a ha b hb hab
    rw [List.mem_singleton] at hb
    exact h (hb ▸ hab ▸ ha)⟩)

def ofList (names : List String) : TypeSet :=
  names.foldl (fun s name => (s.insert name).2) empty

/-- Do the sets hold the same names, in whatever order? -/
def sameNames (s t : TypeSet) : Bool := s.size == t.size && s.names.all t.contains

def text (s : TypeSet) : String := "|".intercalate s.names

theorem names_insert (s : TypeSet) (name : String) :
    (s.insert name).2.names = if name ∈ s.names then s.names else s.names ++ [name] := by
  unfold insert
  split <;> simp_all

end TypeSet

structure ClassRecord where
  name : String
  superName : Option String := none
  origin : Origin := .project
  deriving DecidableEq

structure FieldDef where
  name : String
  className : String
  /-- Inferred types; `none` when inference produced nothing, which is not the empty set. -/
  types : Option TypeSet := none
  origin : Origin := .project
  deriving DecidableEq

structure MethodDef where
  name : String
  className : String
  params : List String := []
  isStatic : Bool := false
  origin : Origin := .project
  deriving DecidableEq

/-! ## Type nodes -/

structure DeclSite where
  file : String
  /-- Byte offset of the binding's name in the file. -/
  offset : Nat
  name : String
  deriving DecidableEq

/-- The name given to the table bound at a site. -/
def DeclSite.className (site : DeclSite) : String :=
  site.file ++ "@(" ++ toString site.offset ++ ")" ++ site.name

structure GlobalRef where
  text : String
  site : Option DeclSite := none
  deriving DecidableEq

inductive TypeNode where
  | declared (name : String) (superName : Option String)
  | anonymous (site : DeclSite)
  | global (reference : GlobalRef)
  deriving DecidableEq

namespace TypeNode

/-- The name under which the index knows the type. -/
def name : TypeNode → String
  | declared name _ => name
  | anonymous site => site.className
  | global reference => reference.text

def superName : TypeNode → Option String
  | declared _ superName => superName
  | anonymous _ => none
  | global _ => none

def ofRecord (r : ClassRecord) : TypeNode := declared r.name r.superName

@[simp] theorem name_ofRecord (r : ClassRecord) : (ofRecord r).name = r.name := rfl

@[simp] theorem superName_ofRecord (r : ClassRecord) : (ofRecord r).superName = r.superName := rfl

end TypeNode

end Lineage
