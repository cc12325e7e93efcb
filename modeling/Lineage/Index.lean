import Std.Data.TreeMap
import Lineage.Declaration
import Lineage.Event

/-!
# Indexes

Declarations kept by class name. Each class has at most one record, the first that was added; its
members stand in the order in which they were added. Queries see what their scope accepts.

A catalog is what a session may ask: the class of a name, the members declared on a class, and the
first of them with a given name. It is read-only while it is used.
-/

namespace Lineage

structure Index.Entry where
  record : Option ClassRecord := none
  fields : Array FieldDef := #[]
  methods : Array MethodDef := #[]
  statics : Array MethodDef := #[]

/-- Everything in the entry is declared on the class, and each method stands in its table. -/
structure Index.Entry.DeclaredOn (className : String) (e : Index.Entry) : Prop where
  record : ∀ r ∈ e.record, r.name = className := by simp
  fields : ∀ f ∈ e.fields, f.className = className := by simp
  methods : ∀ m ∈ e.methods, m.className = className ∧ m.isStatic = false := by simp
  statics : ∀ m ∈ e.statics, m.className = className ∧ m.isStatic = true := by simp

structure Index where
  entries : Std.TreeMap String Index.Entry := {}
  declaredOn : ∀ (c : String) (e : Index.Entry), entries[c]? = some e → e.DeclaredOn c := by simp

namespace Index

def empty : Index := {}

def entry (ix : Index) (className : String) : Entry := ix.entries[className]?.getD {}

theorem declaredOn_entry (ix : Index) (className : String) :
    (ix.entry className).DeclaredOn className := by
  unfold entry
  cases h : ix.entries[className]? with
  | none => exact {}
  | some e => exact ix.declaredOn className e h

def update (ix : Index) (className : String) (f : Entry → Entry)
    (hf : ∀ e : Entry, e.DeclaredOn className → (f e).DeclaredOn className) : Index where
  entries := ix.entries.insert className (f (ix.entry className))
  declaredOn c e h := by
    rw [Std.TreeMap.getElem?_insert] at h
    split at h
    · next hc =>
      cases h
      rw [← Std.LawfulEqCmp.eq_of_compare hc]
      exact hf _ (ix.declaredOn_entry className)
    · exact ix.declaredOn c e h

/-- The first record of a class stays. -/
def addClass (ix : Index) (r : ClassRecord) : Index :=
  ix.update r.name (fun e => { e with record := e.record.or (some r) }) fun e h =>
    { h with
      record := by
        intro kept hk
        rcases Option.or_eq_some_iff.mp hk with hk | ⟨-, hk⟩
        · exact h.record kept hk
        · cases hk
          rfl }

def duplicate? (ix : Index) (r : ClassRecord) : Option Event :=
  (ix.entry r.name).record.map fun kept => .duplicateClass r.name kept.superName r.superName

def addField (ix : Index) (f : FieldDef) : Index :=
  ix.update f.className (fun e => { e with fields := e.fields.push f }) fun _ h =>
    { h with fields := by simpa [or_imp, forall_and] using h.fields }

def addMethod (ix : Index) (m : MethodDef) : Index :=
  ix.update m.className
    (fun e =>
      if m.isStatic then { e with statics := e.statics.push m }
      else { e with methods := e.methods.push m })
    fun _ h => by
      split
      · next hm => exact { h with statics := by simpa [or_imp, forall_and, hm] using h.statics }
      · next hm => exact { h with methods := by simpa [or_imp, forall_and, hm] using h.methods }

/-- The names that have a class record, in ascending order. -/
def classNames (ix : Index) : List String :=
  (ix.entries.toList.filter fun p => p.2.record.isSome).map Prod.fst

def classCount (ix : Index) : Nat :=
  ix.entries.foldl (fun n _ e => if e.record.isSome then n + 1 else n) 0

def class? (ix : Index) (name : String) (scope : Scope) : Option ClassRecord :=
  (ix.entry name).record.filter fun r => scope.accepts r.origin

def fields (ix : Index) (className : String) (scope : Scope) : List FieldDef :=
  (ix.entry className).fields.toList.filter fun f => scope.accepts f.origin

def methods (ix : Index) (className : String) (scope : Scope) : List MethodDef :=
  (ix.entry className).methods.toList.filter fun m => scope.accepts m.origin

def statics (ix : Index) (className : String) (scope : Scope) : List MethodDef :=
  (ix.entry className).statics.toList.filter fun m => scope.accepts m.origin

def field? (ix : Index) (className name : String) (scope : Scope) : Option FieldDef :=
  (ix.entry className).fields.find? fun f => scope.accepts f.origin && f.name == name

def method? (ix : Index) (className name : String) (scope : Scope) : Option MethodDef :=
  (ix.entry className).methods.find? fun m => scope.accepts m.origin && m.name == name

def static? (ix : Index) (className name : String) (scope : Scope) : Option MethodDef :=
  (ix.entry className).statics.find? fun m => scope.accepts m.origin && m.name == name

end Index

/-! ## Catalogs -/

structure Catalog where
  class? : (name : String) → Scope → Option ClassRecord
  fields : (className : String) → Scope → List FieldDef
  methods : (className : String) → Scope → List MethodDef
  statics : (className : String) → Scope → List MethodDef
  field? : (className name : String) → Scope → Option FieldDef
  method? : (className name : String) → Scope → Option MethodDef
  static? : (className name : String) → Scope → Option MethodDef

namespace Catalog

/-- Exact names are found by going through the lists. -/
def ofLists (class? : String → Scope → Option ClassRecord)
    (fields : String → Scope → List FieldDef)
    (methods statics : String → Scope → List MethodDef) : Catalog where
  class? := class?
  fields := fields
  methods := methods
  statics := statics
  field? c name scope := (fields c scope).find? (·.name == name)
  method? c name scope := (methods c scope).find? (·.name == name)
  static? c name scope := (statics c scope).find? (·.name == name)

end Catalog

namespace Index

def catalog (ix : Index) : Catalog where
  class? := ix.class?
  fields := ix.fields
  methods := ix.methods
  statics := ix.statics
  field? := ix.field?
  method? := ix.method?
  static? := ix.static?

/-- The index as far as its lists go. -/
def listCatalog (ix : Index) : Catalog :=
  .ofLists ix.class? ix.fields ix.methods ix.statics

end Index

end Lineage
