import Lineage.Proofs.Index
import Lineage.Proofs.Session.Operation

/-!
# Nearest members

A walk for a member is left at the first level that declares it, and still it finds what a look
through the whole chain finds: the declaration on the first class of the chain that has one.
-/

namespace Lineage.Session

section
variable {c : Catalog} {x : Context} {limit : Option UInt32} {s : Session}

/-- A walk that asks each class by its name has the answer of the first class that has one. -/
theorem Serves.exists_ascends {β : Type} (hs : s.Serves c x limit) (root : Root)
    (own : String → Option β) :
    ∃ w e, Ascends c x.scope (levelBound limit) (fun l => own l.name) root.name [] root w e ∧
      w.found = (s.superChain root).1.findSome? own := by
  obtain ⟨w, e, h⟩ := Lineage.exists_ascends c x.scope (levelBound limit)
    (fun _ => (none : Option Unit)) root.name [] root
  obtain ⟨w', e', h', ha⟩ := h.answered fun l => own l.name
  have hchain : (s.superChain root).1 = w.levels.map Level.name := (answers_superChain h s hs).1
  refine ⟨w', e', h', ?_⟩
  rw [ha.found, hchain, List.findSome?_map]
  rfl

theorem Serves.findField (hs : s.Serves c x limit) (root : Root) (name : String) :
    (s.findField root name).1 =
      (s.superChain root).1.findSome? fun n => c.field? n name x.scope := by
  obtain ⟨w, e, h, hf⟩ := hs.exists_ascends root fun n => c.field? n name x.scope
  exact (answers_findField h s hs).1.trans hf

theorem Serves.findMethod (hs : s.Serves c x limit) (root : Root) (name : String) :
    (s.findMethod root name).1 = (s.superChain root).1.findSome? fun n =>
      (c.method? n name x.scope).or (c.static? n name x.scope) := by
  obtain ⟨w, e, h, hf⟩ := hs.exists_ascends root fun n =>
    (c.method? n name x.scope).or (c.static? n name x.scope)
  exact (answers_findMethod h s hs).1.trans hf

theorem Serves.fieldTypes (hs : s.Serves c x limit) (root : Root) (name : String) :
    (s.fieldTypes root name).1 = (s.findField root name).1.bind FieldDef.types := by
  obtain ⟨w, e, h, hf⟩ := hs.exists_ascends root fun n =>
    (c.field? n name x.scope).map FieldDef.types
  have htypes : (s.fieldTypes root name).1 = w.found.join := (answers_fieldTypes h s hs).1
  have hmap : (fun n => (c.field? n name x.scope).map FieldDef.types) =
      Option.map FieldDef.types ∘ fun n => c.field? n name x.scope := rfl
  rw [htypes, hf, hs.findField, hmap, ← List.map_findSome?]
  cases (s.superChain root).1.findSome? fun n => c.field? n name x.scope <;> rfl

end

/-! ## In an index -/

section
variable {ix : Index} {x : Context} {limit : Option UInt32} {s : Session}

theorem Serves.findField_eq_findSome? (hs : s.Serves ix.catalog x limit) (root : Root)
    (name : String) :
    (s.findField root name).1 = (s.superChain root).1.findSome? fun c =>
      (ix.fields c x.scope).find? (·.name == name) := by
  rw [hs.findField]
  simp only [Index.catalog, Index.field?_eq_find?]

theorem Serves.findMethod_eq_findSome? (hs : s.Serves ix.catalog x limit) (root : Root)
    (name : String) :
    (s.findMethod root name).1 = (s.superChain root).1.findSome? fun c =>
      ((ix.methods c x.scope).find? (·.name == name)).or
        ((ix.statics c x.scope).find? (·.name == name)) := by
  rw [hs.findMethod]
  simp only [Index.catalog, Index.method?_eq_find?, Index.static?_eq_find?]

end

/-- What is found by going through the classes belongs to the first that has something. -/
theorem map_findSome?_eq_find? {α : Type} {own : String → Option α} {className : α → String}
    (hown : ∀ c a, own c = some a → className a = c) (chain : List String) :
    (chain.findSome? own).map className = chain.find? fun c => (own c).isSome := by
  induction chain with
  | nil => rfl
  | cons c chain ih =>
    cases ha : own c with
    | none => simp [ha, ih]
    | some a => simp [ha, hown c a ha]

section
variable {ix : Index} {x : Scope} {c name : String}

theorem className_of_find?_fields {f : FieldDef}
    (h : (ix.fields c x).find? (·.name == name) = some f) : f.className = c :=
  Index.className_of_mem_fields (List.mem_of_find?_eq_some h)

/-- The method of a class is in the table that it says it is in. -/
theorem className_of_find?_methods {m : MethodDef}
    (h : ((ix.methods c x).find? (·.name == name)).or ((ix.statics c x).find? (·.name == name)) =
      some m) :
    m.className = c ∧
      (m.isStatic = false ↔ (ix.methods c x).find? (·.name == name) = some m) ∧
      (m.isStatic = true ↔ (ix.methods c x).find? (·.name == name) = none ∧
        (ix.statics c x).find? (·.name == name) = some m) := by
  rcases Option.or_eq_some_iff.mp h with hm | ⟨hm, hs⟩
  · obtain ⟨hc, hstatic⟩ := Index.className_of_mem_methods (List.mem_of_find?_eq_some hm)
    simp [hm, hc, hstatic]
  · obtain ⟨hc, hstatic⟩ := Index.className_of_mem_statics (List.mem_of_find?_eq_some hs)
    simp [hm, hs, hc, hstatic]

end

/-- Each look-up finds the declaration on the first class of the chain that has one, with instance
methods before static ones; the types are those of the field that is found. -/
theorem find_eq_nearest (ix : Index) (x : Context) (limit : Option UInt32)
    (ops : List Operation) (root : Root) (name : String) :
    let s := (start ix.catalog x limit).performAll ops
    let chain := (s.superChain root).1
    let field (c : String) := (ix.fields c x.scope).find? (·.name == name)
    let instanceMethod (c : String) := (ix.methods c x.scope).find? (·.name == name)
    let staticMethod (c : String) := (ix.statics c x.scope).find? (·.name == name)
    let method (c : String) := (instanceMethod c).or (staticMethod c)
    (s.findField root name).1 = chain.findSome? field ∧
      (s.findField root name).1.map FieldDef.className =
        chain.find? (fun c => (field c).isSome) ∧
      (s.findMethod root name).1 = chain.findSome? method ∧
      (s.findMethod root name).1.map MethodDef.className =
        chain.find? (fun c => (method c).isSome) ∧
      (∀ m, (s.findMethod root name).1 = some m →
        (m.isStatic = false ↔ instanceMethod m.className = some m) ∧
        (m.isStatic = true ↔
          instanceMethod m.className = none ∧ staticMethod m.className = some m)) ∧
      (s.fieldTypes root name).1 = (s.findField root name).1.bind FieldDef.types := by
  intro s chain field instanceMethod staticMethod method
  have hs : s.Serves ix.catalog x limit := (serves_start _ _ _).performAll ops
  have hfield : (s.findField root name).1 = chain.findSome? field := by
    rw [hs.findField]
    simp only [Index.catalog, Index.field?_eq_find?]
    rfl
  have hmethod : (s.findMethod root name).1 = chain.findSome? method := by
    rw [hs.findMethod]
    simp only [Index.catalog, Index.method?_eq_find?, Index.static?_eq_find?]
    rfl
  refine ⟨hfield, ?_, hmethod, ?_, fun m hm => ?_, hs.fieldTypes root name⟩
  · rw [hfield]
    exact map_findSome?_eq_find? (fun c f hf => className_of_find?_fields hf) chain
  · rw [hmethod]
    exact map_findSome?_eq_find? (fun c m hm => (className_of_find?_methods hm).1) chain
  · rw [hmethod] at hm
    obtain ⟨c, -, hc⟩ := List.exists_of_findSome?_eq_some hm
    obtain ⟨rfl, hstatic⟩ := className_of_find?_methods hc
    exact hstatic

end Lineage.Session
