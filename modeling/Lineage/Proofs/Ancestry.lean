import Lineage.Proofs.Index
import Lineage.Session

/-!
# Ancestors

The types above a root, without a session. A parent is looked up by name in the catalog, and a
root is followed by its parent, that type's parent and so on; where a chain comes back to itself
this has no end. `Halts` says where a walk has to leave it: where there is no type, where a name
comes again, or where the walk has as many levels as it may have.
-/

namespace Lineage

/-- The name of the parent. Only a declared class can have one. -/
def Root.superName : Root → Option String
  | node (.declared _ superName) => superName
  | node (.anonymous _) => none
  | node (.global _) => none
  | detached _ => none

@[simp] theorem Root.superName_node (n : TypeNode) : (node n).superName = n.superName := by
  cases n <;> rfl

namespace Catalog

section
variable (c : Catalog) (x : Scope)

/-- The declared type with this name. -/
def node? (name : String) : Option TypeNode := (c.class? name x).map .ofRecord

/-- The immediate parent, if the root names one that is in the catalog. -/
def parent? (r : Root) : Option TypeNode := r.superName.bind (c.node? x)

/-- The root at 0, and at `i + 1` the parent of what is at `i`. -/
def ancestor? (root : Root) : Nat → Option Root
  | 0 => some root
  | i + 1 => (ancestor? root i).bind fun r => (c.parent? x r).map .node

/-- The level that a walk makes of the ancestor at `i`. -/
def level? (root : Root) (i : Nat) : Option Level :=
  (c.ancestor? x root i).map fun r => ⟨r.name, i⟩

/-- A walk from `root` that nobody answers ends before the ancestor at `k`, with this fault about
`root`: 1001 for a cycle, 1002 for a walk that is too long. A name that comes again is a cycle also
where the walk is full. -/
inductive Halts (limit : Nat) (root : Root) (k : Nat) : Option Diagnostic → Prop where
  | top : c.ancestor? x root k = none → Halts limit root k none
  | cycle {p q : Root} {i : Nat} : c.ancestor? x root k = some p → i < k →
      c.ancestor? x root i = some q → q.name = p.name →
      Halts limit root k (some
        { code := 1001
          className := root.name
          message := Text.fill Diagnostic.cyclicTemplate [root.name, p.name] })
  | tooDeep {p : Root} : c.ancestor? x root k = some p →
      (∀ i < k, ∀ q, c.ancestor? x root i = some q → q.name ≠ p.name) → k = limit →
      Halts limit root k (some
        { code := 1002
          className := root.name
          message := Text.fill Diagnostic.tooDeepTemplate [root.name, toString limit] })

end

end Catalog

namespace Index

section
variable {ix : Index} {x : Scope} {root r : Root} {i : Nat}

/-- What is above a root has a record, under the name that is given below it. -/
theorem exists_below_of_ancestor? (h : ix.catalog.ancestor? x root (i + 1) = some r) :
    ∃ q, ix.catalog.ancestor? x root i = some q ∧ q.superName = some r.name ∧
      r.name ∈ ix.classNames := by
  obtain ⟨q, hq, hr⟩ := Option.bind_eq_some_iff.mp h
  obtain ⟨p, hp, rfl⟩ := Option.map_eq_some_iff.mp hr
  obtain ⟨name, hsuper, hn⟩ := Option.bind_eq_some_iff.mp hp
  obtain ⟨record, hrecord, rfl⟩ := Option.map_eq_some_iff.mp hn
  have hname : (Root.node (.ofRecord record)).name = name := name_of_class? hrecord
  rw [hname]
  exact ⟨q, hq, hsuper, mem_classNames_of_class? hrecord⟩

theorem mem_classNames_of_ancestor? (h : ix.catalog.ancestor? x root (i + 1) = some r) :
    r.name ∈ ix.classNames := by
  obtain ⟨-, -, -, hmem⟩ := exists_below_of_ancestor? h
  exact hmem

/-- An ancestor has the name by which it was asked for. -/
theorem name_of_ancestor? {name : String}
    (hname : (ix.catalog.ancestor? x root i).bind Root.superName = some name)
    (h : ix.catalog.ancestor? x root (i + 1) = some r) : r.name = name := by
  obtain ⟨q, hq, hsuper, -⟩ := exists_below_of_ancestor? h
  rw [hq, Option.bind_some, hsuper] at hname
  exact Option.some.inj hname

end

end Index

end Lineage
