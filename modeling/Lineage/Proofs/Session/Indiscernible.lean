import Lineage.Completion
import Lineage.Proofs.Index
import Lineage.Proofs.Session.Ascent
import Lineage.Proofs.Stub
import Lineage.Report
import Lineage.Session.Operation

/-!
# What no session tells apart

A node that is written and read again has lost its kind. No request asks for it: a walk looks at
the name of its root and at the name of the parent, and these are what the record of a node keeps.

A catalog need not look up exact names by itself: it may go through its lists, and then each list
is filtered and copied before it is searched. No request tells this from an index that searches its
tables, neither by what is found nor by what is counted, reported or logged.
-/

namespace Lineage

open Stub
open Text (Bytes)

/-- The roots have the same name, and their parents have. -/
structure Root.Namesake (r r' : Root) : Prop where
  name : r.name = r'.name
  superName : r.superName = r'.superName

theorem TypeNode.namesake_restored (n : TypeNode) :
    Root.Namesake (.node n.restored) (.node n) :=
  ⟨rfl, (Root.superName_node n).symm⟩

namespace Session

/-- No session tells the roots apart. A request has the same answer for both and leaves the same
session behind, with the same memory, counters, diagnostics and log. -/
structure Indiscernible (r r' : Root) : Prop where
  parentOf : ∀ s : Session, s.parentOf r = s.parentOf r'
  walk : ∀ (s : Session) (β : Type) (visit : Level → Option β), s.walk r visit = s.walk r' visit
  superChain : ∀ s : Session, s.superChain r = s.superChain r'
  findField : ∀ (s : Session) (name : String), s.findField r name = s.findField r' name
  findMethod : ∀ (s : Session) (name : String), s.findMethod r name = s.findMethod r' name
  fieldTypes : ∀ (s : Session) (name : String), s.fieldTypes r name = s.fieldTypes r' name
  collect : ∀ (s : Session) (matcher : Matcher) (asField : Bool) (sink : Array Candidate),
    s.collect r matcher asField sink = s.collect r' matcher asField sink
  collectFields : ∀ (s : Session) (matcher : Matcher) (sink : Array Candidate),
    s.collectFields r matcher sink = s.collectFields r' matcher sink
  collectStatics : ∀ (s : Session) (matcher : Matcher) (sink : Array Candidate),
    s.collectStatics r matcher sink = s.collectStatics r' matcher sink
  collectMethods : ∀ (s : Session) (matcher : Matcher) (asField : Bool) (sink : Array Candidate),
    s.collectMethods r matcher asField sink = s.collectMethods r' matcher asField sink

section
variable {r r' : Root} (h : r.Namesake r') (s : Session)
include h

theorem parentOf_of_namesake : s.parentOf r = s.parentOf r' := by
  have hparent : ∀ r : Root, s.parentOf r = s.superType (.declared r.name r.superName) := by
    rintro ((_ | _ | _) | _) <;> rfl
  rw [hparent, hparent, h.name, h.superName]

theorem climb_of_namesake {β : Type} (visit : Level → Option β) (root : String) (g : ChainGuard) :
    climb visit root s g r = climb visit root s g r' := by
  rw [climb, climb, h.name, parentOf_of_namesake h]

theorem walk_of_namesake {β : Type} (visit : Level → Option β) :
    s.walk r visit = s.walk r' visit := by
  rw [walk, walk, h.name, climb_of_namesake h]

theorem superChain_of_namesake : s.superChain r = s.superChain r' := by
  rw [superChain, superChain, walk_of_namesake h]

end

theorem indiscernible_of_namesake {r r' : Root} (h : r.Namesake r') : Indiscernible r r' where
  parentOf := parentOf_of_namesake h
  walk s _ visit := walk_of_namesake h s visit
  superChain := superChain_of_namesake h
  findField s name := by simp only [findField, walk_of_namesake h, h.name]
  findMethod s name := by simp only [findMethod, walk_of_namesake h, h.name]
  fieldTypes s name := by simp only [fieldTypes, walk_of_namesake h]
  collect s matcher asField sink := by simp only [collect, superChain_of_namesake h, h.name]
  collectFields s matcher sink := by simp only [collectFields, superChain_of_namesake h]
  collectStatics s matcher sink := by simp only [collectStatics, superChain_of_namesake h]
  collectMethods s matcher asField sink := by simp only [collectMethods, superChain_of_namesake h]

end Session

namespace TypeNode

/-- A node that could be written comes back from what was written, as a declared class. It is the
same node just if it was one before, and it is indiscernible from it in any case. -/
theorem read_indiscernible (n : TypeNode) (sink sink' : Sink) (h : n.write sink = (.ok (), sink')) :
    ∃ bytes r, sink'.bytes = sink.bytes ++ bytes ∧
      (∀ rest, read (bytes ++ rest) = (.ok r, rest)) ∧
      (r = n ↔ ∃ name superName, n = declared name superName) ∧
      Session.Indiscernible (.node r) (.node n) := by
  have hfits : n.Fits := fits_of_write_ok h
  refine ⟨n.record, n.restored, ?_, read_record_append hfits, restored_eq_iff,
    Session.indiscernible_of_namesake n.namesake_restored⟩
  rw [write_eq_write hfits] at h
  rcases sink.write_cases n.record with ⟨t, ht, hbytes⟩ | ⟨t, k, ht, -, -⟩
  · cases h.symm.trans ht
    exact hbytes
  · cases h.symm.trans ht

/-- The table of a local binding does not inherit after it has come back, not even where the index
has a class of its name with a parent. -/
theorem read_anonymous :
    let n : TypeNode := .anonymous ⟨"a.lua", 3, "t"⟩
    let ix : Index := Index.empty.addClass { name := "a.lua@(3)t", superName := some "B" }
      |>.addClass { name := "B" }
    let s := Session.start ix.catalog ⟨0, .project⟩
    ∃ sink r, n.write {} = (.ok (), sink) ∧ read sink.bytes = (.ok r, []) ∧ r ≠ n ∧
      s.superChain (.node r) = s.superChain (.node n) ∧
      (s.superChain (.node r)).1 = ["a.lua@(3)t"] := by
  intro n ix s
  have hwrite : n.write {} = (.ok (), { bytes := n.record }) := write_eq_write (by decide +kernel) {}
  obtain ⟨bytes, r, hbytes, hread, hkind, halike⟩ := read_indiscernible n {} _ hwrite
  have hchain := halike.superChain s
  refine ⟨_, r, hwrite, ?_, ?_, hchain, ?_⟩
  · rw [hbytes]
    simpa using hread []
  · rw [Ne, hkind]
    rintro ⟨name, superName, hn⟩
    have hn : anonymous ⟨"a.lua", 3, "t"⟩ = declared name superName := hn
    cases hn
  · rw [hchain]
    decide +kernel

end TypeNode

end Lineage

/-! ## Look-ups and lists -/

namespace Lineage.Index

/-- The index and its lists are the same to look-ups, sessions, completions and queries. -/
theorem listCatalog_indiscernible (ix : Index) :
    (∀ (className name : String) (x : Scope),
      ix.listCatalog.field? className name x = ix.catalog.field? className name x ∧
      ix.listCatalog.method? className name x = ix.catalog.method? className name x ∧
      ix.listCatalog.static? className name x = ix.catalog.static? className name x) ∧
    (∀ (x : Context) (limit : Option UInt32) (ops : List Session.Operation)
        (op : Session.Operation),
      let s := (Session.start ix.catalog x limit).performAll ops
      let t := (Session.start ix.listCatalog x limit).performAll ops
      (t.perform op).1 = (s.perform op).1 ∧ t.stats = s.stats ∧
        t.diagnostics = s.diagnostics ∧ t.log = s.log) ∧
    (∀ (r : CompletionRequest) (root : Root),
      (r.complete? ix.listCatalog root).map (fun c => (c.1, c.2.log)) =
        (r.complete? ix.catalog root).map (fun c => (c.1, c.2.log))) ∧
    (∀ (o : Options) (q : Query), q.run o ix.listCatalog = q.run o ix.catalog) := by
  refine ⟨fun className name x => ⟨?_, ?_, ?_⟩, fun x limit ops op => ?_, fun r root => ?_,
    fun o q => ?_⟩
  · exact field?_eq_find?.symm
  · exact method?_eq_find?.symm
  · exact static?_eq_find?.symm
  · rw [listCatalog_eq_catalog]
    exact ⟨rfl, rfl, rfl, rfl⟩
  · rw [listCatalog_eq_catalog]
  · rw [listCatalog_eq_catalog]

end Lineage.Index
