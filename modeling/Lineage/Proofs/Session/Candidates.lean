import Mathlib.Data.List.Basic
import Lineage.Proofs.Index
import Lineage.Proofs.Session.Chain

/-!
# Candidates of a chain

What a completion offers is a list that can be written down from the chain: the fields of all
classes, then their static methods, then their instance methods. A collector shows a member by the
depth of its level; since no class comes twice in a chain, depth 0 is the class of the root and
nothing else, and a candidate can be told from its declaration.
-/

namespace Lineage

namespace Harvest

/-- The harvest with these candidates after those it has. -/
def add (h : Harvest) (cs : List Candidate) : Harvest :=
  ⟨h.entries ++ cs.toArray, h.count + cs.length⟩

theorem add_nil (h : Harvest) : h.add [] = h := by simp [add]

theorem add_add (h : Harvest) (cs ds : List Candidate) : (h.add cs).add ds = h.add (cs ++ ds) := by
  simp [add, Nat.add_assoc]

theorem toList_entries_add (h : Harvest) (cs : List Candidate) :
    (h.add cs).entries.toList = h.entries.toList ++ cs := by simp [add]

theorem offer_eq_add (matcher : Matcher) (h : Harvest) (c : Candidate) :
    h.offer matcher c = h.add ([c].filter (matcher.accepts ·.name)) := by
  by_cases hc : matcher.accepts c.name <;> simp [offer, add, hc]

theorem foldl_offer (matcher : Matcher) (cs : List Candidate) (h : Harvest) :
    cs.foldl (offer matcher) h = h.add (cs.filter (matcher.accepts ·.name)) := by
  induction cs generalizing h with
  | nil => rw [List.foldl_nil, List.filter_nil, add_nil]
  | cons c cs ih =>
    rw [List.foldl_cons, ih, offer_eq_add, add_add, ← List.filter_append, List.singleton_append]

/-- What the levels of a chain add does not depend on the harvest they add it to. -/
theorem offerAll_eq_add_levels {α : Type} (matcher : Matcher) (chain : List String)
    (declared : String → List α) (atLevel : String → Nat → α → Candidate) (h : Harvest) :
    offerAll matcher chain declared atLevel h =
      h.add ((chain.zipIdx.flatMap fun l => (declared l.1).map (atLevel l.1 l.2)).filter
        (matcher.accepts ·.name)) := by
  rw [← foldl_offer]
  simp only [offerAll, List.foldl_flatMap, List.foldl_map]

end Harvest

/-- A member is the root's own if its class is the root's. -/
def Standing.of (root owner : String) : Standing := if owner = root then .own else .inherited

/-- The field as a completion for `root` offers it. -/
def FieldDef.candidate (root : String) (f : FieldDef) : Candidate where
  name := f.name
  kind := .field
  owner := f.className
  standing := .of root f.className

/-- The method as a completion for `root` offers it. -/
def MethodDef.candidate (root : String) (asField : Bool) (m : MethodDef) : Candidate where
  name := m.name
  kind := if m.isStatic then .staticMethod else .method
  owner := m.className
  standing := .of root m.className
  insertion := some (if asField && !m.isStatic then .reference else .call m.params)

/-- What is offered of the declarations on a chain, one class after the other. -/
def Candidate.listing {α : Type} (matcher : Matcher) (chain : List String)
    (declared : String → List α) (candidate : α → Candidate) : List Candidate :=
  chain.flatMap fun c => ((declared c).map candidate).filter (matcher.accepts ·.name)

section
variable {ix : Index} {x : Scope} {root owner : String} {depth : Nat}
  (hd : Standing.atDepth depth = .of root owner)
include hd

theorem Candidate.ofField_eq {f : FieldDef} (hf : f ∈ ix.fields owner x) :
    ofField owner depth f = f.candidate root := by
  cases Index.className_of_mem_fields hf
  rw [ofField, hd, FieldDef.candidate]

theorem Candidate.ofStatic_eq {m : MethodDef} (hm : m ∈ ix.statics owner x) (asField : Bool) :
    ofStatic owner depth m = m.candidate root asField := by
  obtain ⟨rfl, hstatic⟩ := Index.className_of_mem_statics hm
  simp [ofStatic, MethodDef.candidate, hd, hstatic]

theorem Candidate.ofMethod_eq {m : MethodDef} (hm : m ∈ ix.methods owner x) (asField : Bool) :
    ofMethod asField owner depth m = m.candidate root asField := by
  obtain ⟨rfl, hstatic⟩ := Index.className_of_mem_methods hm
  simp [ofMethod, MethodDef.candidate, hd, hstatic]

end

section
variable {root : String} {above : List String}

/-- Only the root's class stands at the foot of its chain. -/
theorem Standing.atDepth_eq_of (hroot : root ∉ above) {level : String × Nat}
    (h : level ∈ (root :: above).zipIdx) : atDepth level.2 = of root level.1 := by
  obtain ⟨c, i⟩ := level
  cases i with
  | zero =>
    obtain ⟨-, rfl⟩ := List.mem_zipIdx' h
    exact (if_pos rfl).symm
  | succ i =>
    obtain ⟨-, hc⟩ := List.mem_zipIdx' h
    have hmem : c ∈ above := by
      rw [hc, List.getElem_cons_succ]
      exact List.getElem_mem _
    exact (if_neg fun (heq : c = root) => hroot (heq ▸ hmem)).symm

/-- The levels of a chain give what its classes give. -/
theorem Harvest.offerAll_eq_add {α : Type} (matcher : Matcher) (hroot : root ∉ above)
    {declared : String → List α} {atLevel : String → Nat → α → Candidate}
    {candidate : α → Candidate}
    (hc : ∀ c i, Standing.atDepth i = .of root c → ∀ m ∈ declared c, atLevel c i m = candidate m)
    (h : Harvest) :
    offerAll matcher (root :: above) declared atLevel h =
      h.add (Candidate.listing matcher (root :: above) declared candidate) := by
  have hlevels : (root :: above).zipIdx.flatMap (fun l => (declared l.1).map (atLevel l.1 l.2)) =
      (root :: above).flatMap fun c => (declared c).map candidate := by
    calc
      _ = (root :: above).zipIdx.flatMap fun l => (declared l.1).map candidate :=
        List.flatMap_congr fun l hl =>
          List.map_congr_left fun m hm => hc l.1 l.2 (Standing.atDepth_eq_of hroot hl) m hm
      _ = ((root :: above).zipIdx.map Prod.fst).flatMap fun c => (declared c).map candidate :=
        (List.flatMap_map Prod.fst (fun c => (declared c).map candidate) _).symm
      _ = _ := by rw [List.zipIdx_map_fst]
  rw [offerAll_eq_add_levels, hlevels, List.filter_flatMap, Candidate.listing]

variable (ix : Index) (x : Scope) (matcher : Matcher) (hroot : root ∉ above) (asField : Bool)
  (h : Harvest)
include hroot

theorem Harvest.offerAll_fields :
    offerAll matcher (root :: above) (ix.fields · x) Candidate.ofField h =
      h.add (Candidate.listing matcher (root :: above) (ix.fields · x) (·.candidate root)) := by
  apply offerAll_eq_add matcher hroot
  exact fun _ _ hd _ hf => Candidate.ofField_eq hd hf

theorem Harvest.offerAll_statics :
    offerAll matcher (root :: above) (ix.statics · x) Candidate.ofStatic h =
      h.add (Candidate.listing matcher (root :: above) (ix.statics · x)
        (·.candidate root asField)) := by
  apply offerAll_eq_add matcher hroot
  exact fun _ _ hd _ hm => Candidate.ofStatic_eq hd hm asField

theorem Harvest.offerAll_methods :
    offerAll matcher (root :: above) (ix.methods · x) (Candidate.ofMethod asField) h =
      h.add (Candidate.listing matcher (root :: above) (ix.methods · x)
        (·.candidate root asField)) := by
  apply offerAll_eq_add matcher hroot
  exact fun _ _ hd _ hm => Candidate.ofMethod_eq hd hm asField

end

/-! ## Collecting -/

namespace Session

section
variable {x : Context} {limit : Option UInt32} {s : Session}

/-- A chain begins with its root, which does not come again. -/
theorem Serves.superChain_eq_cons {c : Catalog} (hs : s.Serves c x limit) (root : Root) :
    ∃ above, (s.superChain root).1 = root.name :: above ∧ root.name ∉ above := by
  obtain ⟨w, e, h⟩ := exists_ascends c x.scope (levelBound limit)
    (fun _ => (none : Option Unit)) root.name [] root
  have hnodup := hs.nodup_superChain root
  obtain ⟨above, -, hlevels, -⟩ := h.exists_cons (levelBound_pos limit)
  have hchain : (s.superChain root).1 = root.name :: above.map Level.name := by
    rw [show (s.superChain root).1 = _ from (answers_superChain h s hs).1, hlevels, List.map_cons]
  rw [hchain] at hnodup
  exact ⟨_, hchain, (List.nodup_cons.mp hnodup).1⟩

theorem Serves.collect_eq_add {ix : Index} (hs : s.Serves ix.catalog x limit) (root : Root)
    (matcher : Matcher) (asField : Bool) (sink : Array Candidate) :
    (s.collect root matcher asField sink).1 =
      let chain := (s.superChain root).1
      (⟨sink, 0⟩ : Harvest).add
        (Candidate.listing matcher chain (ix.fields · x.scope) (·.candidate root.name) ++
          Candidate.listing matcher chain (ix.statics · x.scope)
            (·.candidate root.name asField) ++
          Candidate.listing matcher chain (ix.methods · x.scope)
            (·.candidate root.name asField)) := by
  obtain ⟨w, e, h⟩ := exists_ascends ix.catalog x.scope (levelBound limit)
    (fun _ => (none : Option Unit)) root.name [] root
  obtain ⟨above, habove, hroot⟩ := hs.superChain_eq_cons root
  have hchain := (answers_superChain h s hs).1
  rw [habove] at hchain
  rw [(answers_collect matcher asField sink h s hs).1, ← hchain, habove]
  simp only [Index.catalog]
  rw [Harvest.offerAll_fields ix x.scope matcher hroot,
    Harvest.offerAll_statics ix x.scope matcher hroot asField,
    Harvest.offerAll_methods ix x.scope matcher hroot, Harvest.add_add, Harvest.add_add,
    List.append_assoc]

end

/-- A completion adds three groups to what is in the sink: for each class of the chain, from the
root's upwards, its visible fields that are accepted, then its static methods and then its instance
methods, each time in the order of their declaration. -/
theorem collect_eq_groups (ix : Index) (x : Context) (limit : Option UInt32)
    (ops : List Operation) (root : Root) (matcher : Matcher) (asField : Bool)
    (sink : Array Candidate) :
    let s := (start ix.catalog x limit).performAll ops
    let chain := (s.superChain root).1
    let fields := chain.flatMap fun c =>
      ((ix.fields c x.scope).filter (matcher.accepts ·.name)).map (·.candidate root.name)
    let statics := chain.flatMap fun c =>
      ((ix.statics c x.scope).filter (matcher.accepts ·.name)).map (·.candidate root.name asField)
    let methods := chain.flatMap fun c =>
      ((ix.methods c x.scope).filter (matcher.accepts ·.name)).map (·.candidate root.name asField)
    let harvest := (s.collect root matcher asField sink).1
    harvest.entries.toList = sink.toList ++ (fields ++ statics ++ methods) ∧
      harvest.count = (fields ++ statics ++ methods).length := by
  intro s chain fields statics methods harvest
  have hs : s.Serves ix.catalog x limit := (serves_start _ _ _).performAll ops
  have hharvest : harvest = (⟨sink, 0⟩ : Harvest).add (fields ++ statics ++ methods) := by
    show (s.collect root matcher asField sink).1 = _
    rw [hs.collect_eq_add]
    simp only [Candidate.listing, List.filter_map]
    rfl
  rw [hharvest]
  exact ⟨Harvest.toList_entries_add _ _, Nat.zero_add _⟩

end Session

end Lineage
