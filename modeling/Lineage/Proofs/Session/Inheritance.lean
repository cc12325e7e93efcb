import Lineage.Proofs.Session.Member

/-!
# Inheritance

`Inherits c x own n r a` is inheritance without a walk: what a class declares itself it has, and
what it does not declare it has from its parent, here from `n` classes above. Nothing keeps this
from going round in a circle, but then nothing is inherited. A walk without a limit finds exactly
what is inherited: where its guard turns it back, it has already been to everything above.
-/

namespace Lineage

/-- `r` has `a` from the class that stands `n` above it. -/
inductive Inherits {α : Type} (c : Catalog) (x : Scope) (own : String → Option α) :
    Nat → Root → α → Prop where
  | own {r : Root} {a : α} : own r.name = some a → Inherits c x own 0 r a
  | parent {n : Nat} {r : Root} {p : TypeNode} {a : α} : own r.name = none →
      c.parent? x r = some p → Inherits c x own n (.node p) a → Inherits c x own (n + 1) r a

/-- The root is what the catalog has under its name. -/
def Catalog.Settled (c : Catalog) (x : Scope) (r : Root) : Prop :=
  (c.node? x r.name).map .node = some r

theorem Catalog.settled_of_parent? {c : Catalog} {x : Scope} {r : Root} {p : TypeNode}
    (hname : ∀ name q, c.node? x name = some q → q.name = name) (hp : c.parent? x r = some p) :
    c.Settled x (.node p) := by
  obtain ⟨name, -, hn⟩ := Option.bind_eq_some_iff.mp hp
  cases hname name p hn
  show (c.node? x p.name).map Root.node = some (.node p)
  rw [hn, Option.map_some]

section
variable {α : Type} {c : Catalog} {x : Scope} {own : String → Option α}

theorem Inherits.unique {n m : Nat} {r : Root} {a b : α} (h : Inherits c x own n r a)
    (h' : Inherits c x own m r b) : n = m ∧ a = b := by
  induction h generalizing m with
  | own ha =>
    cases h' with
    | own hb => exact ⟨rfl, Option.some.inj (ha.symm.trans hb)⟩
    | parent hb _ _ => cases ha.symm.trans hb
  | parent ha hp _ ih =>
    cases h' with
    | own hb => cases ha.symm.trans hb
    | parent _ hp' h' =>
      cases hp.symm.trans hp'
      obtain ⟨rfl, rfl⟩ := ih h'
      exact ⟨rfl, rfl⟩

/-- What is inherited is declared by the class itself, or else inherited by its parent. -/
theorem exists_inherits_iff {r : Root} {a : α} :
    (∃ n, Inherits c x own n r a) ↔ own r.name = some a ∨
      (own r.name = none ∧ ∃ p, c.parent? x r = some p ∧ ∃ n, Inherits c x own n (.node p) a) := by
  constructor
  · rintro ⟨n, h⟩
    cases h with
    | own ha => exact .inl ha
    | parent ha hp h => exact .inr ⟨ha, _, hp, _, h⟩
  · rintro (ha | ⟨ha, p, hp, n, h⟩)
    · exact ⟨0, .own ha⟩
    · exact ⟨n + 1, .parent ha hp h⟩

theorem Ascends.inherits {bound : Nat} {root : String} {seen : List String} {next : Root}
    {w : Walk α} {e : Effort} {a : α}
    (h : Ascends c x bound (fun l => own l.name) root seen next w e) (ha : w.found = some a) :
    ∃ n, Inherits c x own n next a := by
  induction h with
  | cycle _ => cases ha
  | tooDeep _ _ => cases ha
  | found _ _ hv => exact ⟨0, .own (hv.trans ha)⟩
  | top _ _ _ _ => cases ha
  | up _ _ hv hp _ ih =>
    obtain ⟨n, hn⟩ := ih ha
    exact ⟨n + 1, .parent hv hp hn⟩

/-- The classes a walk has been to, each of them farther than `n` from where it has `a`. -/
structure Behind (c : Catalog) (x : Scope) (own : String → Option α) (a : α) (n : Nat)
    (seen : List String) : Prop where
  nodup : seen.Nodup
  farther : ∀ name ∈ seen, ∃ r m, r.name = name ∧ c.Settled x r ∧ n < m ∧ Inherits c x own m r a

theorem behind_nil (a : α) (n : Nat) : Behind c x own a n [] :=
  ⟨List.nodup_nil, by simp⟩

theorem Behind.concat {a : α} {n : Nat} {seen : List String} {r : Root}
    (h : Behind c x own a (n + 1) seen) (hmem : r.name ∉ seen) (hr : c.Settled x r)
    (hi : Inherits c x own (n + 1) r a) : Behind c x own a n (seen ++ [r.name]) where
  nodup := by
    rw [List.nodup_append]
    refine ⟨h.nodup, by simp, ?_⟩
    rintro name hname _ hr rfl
    exact hmem (List.mem_singleton.mp hr ▸ hname)
  farther name hname := by
    rcases List.mem_append.mp hname with hname | hname
    · obtain ⟨r', m, hr', hset, hlt, hm⟩ := h.farther name hname
      exact ⟨r', m, hr', hset, by omega, hm⟩
    · exact ⟨r, n + 1, (List.mem_singleton.mp hname).symm, hr, by omega, hi⟩

/-- The guard does not turn a walk back from something it could find. A name that comes again
stands for a class the walk has been to, and that class cannot be nearer now than it was. -/
theorem Ascends.found_of_inherits {bound : Nat} {root : String} {seen : List String} {next : Root}
    {w : Walk α} {e : Effort} {a : α} {n : Nat} {known : List String}
    (h : Ascends c x bound (fun l => own l.name) root seen next w e)
    (hname : ∀ name p, c.node? x name = some p → p.name = name ∧ name ∈ known)
    (hbound : known.length < bound) (hnext : c.Settled x next)
    (hseen : Behind c x own a n seen) (hi : Inherits c x own n next a) : w.found = some a := by
  have hknown : ∀ r : Root, c.Settled x r → r.name ∈ known := by
    intro r hr
    obtain ⟨p, hp, -⟩ := Option.map_eq_some_iff.mp hr
    exact (hname _ p hp).2
  induction h generalizing n with
  | cycle hmem =>
    obtain ⟨r, m, hr, hset, hlt, hm⟩ := hseen.farther _ hmem
    unfold Catalog.Settled at hset hnext
    rw [hr, hnext] at hset
    cases hset
    have := (hi.unique hm).1
    omega
  | @tooDeep seen next hmem hfull =>
    -- The walk would have been to all classes that there are.
    have hsub : seen ⊆ known := by
      intro name hmem
      obtain ⟨r, m, rfl, hset, -⟩ := hseen.farther name hmem
      exact hknown r hset
    have := hseen.nodup.length_le_of_subset hsub
    omega
  | found _ _ hv =>
    obtain ⟨-, rfl⟩ := hi.unique (.own hv)
    rfl
  | top _ _ hv hp =>
    cases hi with
    | own ha => cases hv.symm.trans ha
    | parent _ hp' _ => cases hp.symm.trans hp'
  | up hmem _ hv hp _ ih =>
    cases hi with
    | own ha => cases hv.symm.trans ha
    | parent hown hp' hi' =>
      cases hp.symm.trans hp'
      have hparent := Catalog.settled_of_parent? (fun name p hp => (hname name p hp).1) hp
      exact ih hparent (hseen.concat hmem hnext (.parent hown hp hi')) hi'

/-- The look-up of a declaration, from those on the class itself and what the parent has. -/
theorem eq_own_or_above {r : Root} {found : Option α} {above : TypeNode → Option α}
    (hfound : ∀ a, found = some a ↔ ∃ n, Inherits c x own n r a)
    (habove : ∀ p, c.parent? x r = some p →
      ∀ a, above p = some a ↔ ∃ n, Inherits c x own n (.node p) a) :
    found = (own r.name).or ((c.parent? x r).bind above) := by
  ext a
  rw [hfound, exists_inherits_iff, Option.or_eq_some_iff]
  refine or_congr_right (and_congr_right fun _ => ?_)
  rw [Option.bind_eq_some_iff]
  refine exists_congr fun p => and_congr_right fun hp => ?_
  exact (habove p hp a).symm

end

/-! ## Walks through an index -/

namespace Session

section
variable {ix : Index} {x : Context}

theorem name_of_node? {name : String} {p : TypeNode} (h : ix.catalog.node? x.scope name = some p) :
    p.name = name := by
  obtain ⟨r, hr, rfl⟩ := Option.map_eq_some_iff.mp h
  exact Index.name_of_class? hr

theorem settled_ofRecord {c : String} {r : ClassRecord} (hr : ix.class? c x.scope = some r) :
    ix.catalog.Settled x.scope (.node (.ofRecord r)) := by
  have hn : ix.catalog.node? x.scope c = some (.ofRecord r) := by
    show (ix.class? c x.scope).map TypeNode.ofRecord = _
    rw [hr, Option.map_some]
  show (ix.catalog.node? x.scope r.name).map Root.node = some (.node (.ofRecord r))
  rw [Index.name_of_class? hr, hn, Option.map_some]

/-- An index with few enough classes is searched to the end. -/
theorem exists_ascends_inherits {α : Type} (hsize : ix.classCount < UInt32.size - 1)
    (own : String → Option α) {r : Root} (hr : ix.catalog.Settled x.scope r) :
    ∃ w e, Ascends ix.catalog x.scope (levelBound none) (fun l => own l.name) r.name [] r w e ∧
      ∀ a, w.found = some a ↔ ∃ n, Inherits ix.catalog x.scope own n r a := by
  obtain ⟨w, e, h⟩ := exists_ascends ix.catalog x.scope (levelBound none) (fun l => own l.name)
    r.name [] r
  refine ⟨w, e, h, fun a => ⟨h.inherits, fun ⟨n, hi⟩ => ?_⟩⟩
  have hknown : ∀ name p, ix.catalog.node? x.scope name = some p →
      p.name = name ∧ name ∈ ix.classNames := by
    intro name p hp
    obtain ⟨_, hc, -⟩ := Option.map_eq_some_iff.mp hp
    exact ⟨name_of_node? hp, Index.mem_classNames_of_class? hc⟩
  have hbound : ix.classNames.length < levelBound none := by
    rw [ix.length_classNames]
    exact hsize
  exact h.found_of_inherits hknown hbound hr (behind_nil a n) hi

section
variable {s : Session} {r : Root}

theorem Serves.findField_eq_some_iff (hs : s.Serves ix.catalog x none)
    (hsize : ix.classCount < UInt32.size - 1) (hr : ix.catalog.Settled x.scope r) (name : String)
    (f : FieldDef) :
    (s.findField r name).1 = some f ↔
      ∃ n, Inherits ix.catalog x.scope (fun c => ix.field? c name x.scope) n r f := by
  obtain ⟨w, e, h, hf⟩ := exists_ascends_inherits hsize (fun c => ix.field? c name x.scope) hr
  rw [← hf, (answers_findField h s hs).1]

theorem Serves.findMethod_eq_some_iff (hs : s.Serves ix.catalog x none)
    (hsize : ix.classCount < UInt32.size - 1) (hr : ix.catalog.Settled x.scope r) (name : String)
    (m : MethodDef) :
    (s.findMethod r name).1 = some m ↔
      ∃ n, Inherits ix.catalog x.scope
        (fun c => (ix.method? c name x.scope).or (ix.static? c name x.scope)) n r m := by
  obtain ⟨w, e, h, hf⟩ := exists_ascends_inherits hsize
    (fun c => (ix.method? c name x.scope).or (ix.static? c name x.scope)) hr
  rw [← hf, (answers_findMethod h s hs).1]

end

end

/-- What a class does not declare it has from its parent, also where the parent's own walk would come
back to the class. The three look-ups may be made in sessions with different pasts. -/
theorem find_eq_own_or_parent (ix : Index) (hsize : ix.classCount < UInt32.size - 1) (x : Context)
    (cls : String) (r : ClassRecord) (hr : ix.class? cls x.scope = some r)
    (ops ops' ops'' : List Operation) (name : String) :
    let s := (start ix.catalog x none).performAll ops
    let t := (start ix.catalog x none).performAll ops'
    let u := (start ix.catalog x none).performAll ops''
    let a := TypeNode.ofRecord r
    let p := (t.superType a).1
    (s.findField (.node a) name).1 =
        (ix.field? a.name name x.scope).or (p.bind fun p => (u.findField (.node p) name).1) ∧
      (s.findMethod (.node a) name).1 =
        ((ix.method? a.name name x.scope).or (ix.static? a.name name x.scope)).or
          (p.bind fun p => (u.findMethod (.node p) name).1) ∧
      (s.fieldTypes (.node a) name).1 =
        match ix.field? a.name name x.scope with
        | some f => f.types
        | none => p.bind fun p => (u.fieldTypes (.node p) name).1 := by
  intro s t u a p
  have hserves : ∀ ops, ((start ix.catalog x none).performAll ops).Serves ix.catalog x none :=
    (serves_start _ _ _).performAll
  have hs : s.Serves ix.catalog x none := hserves ops
  have hu : u.Serves ix.catalog x none := hserves ops''
  have ha : ix.catalog.Settled x.scope (.node a) := settled_ofRecord hr
  have hp : p = ix.catalog.parent? x.scope (.node a) := (answers_superType a t (hserves ops')).1
  have hsettled : ∀ p, ix.catalog.parent? x.scope (.node a) = some p →
      ix.catalog.Settled x.scope (.node p) := fun p hp =>
    Catalog.settled_of_parent? (fun _ _ hn => name_of_node? hn) hp
  have hfield : (s.findField (.node a) name).1 =
      (ix.field? a.name name x.scope).or (p.bind fun p => (u.findField (.node p) name).1) := by
    rw [hp]
    exact eq_own_or_above (hs.findField_eq_some_iff hsize ha name) fun p hp =>
      hu.findField_eq_some_iff hsize (hsettled p hp) name
  have hmethod : (s.findMethod (.node a) name).1 =
      ((ix.method? a.name name x.scope).or (ix.static? a.name name x.scope)).or
        (p.bind fun p => (u.findMethod (.node p) name).1) := by
    rw [hp]
    exact eq_own_or_above (hs.findMethod_eq_some_iff hsize ha name) fun p hp =>
      hu.findMethod_eq_some_iff hsize (hsettled p hp) name
  refine ⟨hfield, hmethod, ?_⟩
  -- The types are those of the field that is found, so the law for fields carries over.
  simp only [hs.fieldTypes, hu.fieldTypes, hfield]
  cases ix.field? a.name name x.scope with
  | some f => rfl
  | none => cases p <;> rfl

/-- `A` has the field of `B`, which it meets before it comes back to itself. -/
theorem findField_loop :
    let r : ClassRecord := { name := "A", superName := some "B" }
    Index.loop.classCount < UInt32.size - 1 ∧ Index.loop.class? "A" .project = some r ∧
      ((start Index.loop.catalog ⟨0, .project⟩ none).findField (.node (.ofRecord r)) "x").1 =
        some { name := "x", className := "B" } := by
  intro r
  have hsize : Index.loop.classCount < UInt32.size - 1 := by decide
  have hr : Index.loop.class? "A" .project = some r := by decide
  have hlaw := find_eq_own_or_parent Index.loop hsize ⟨0, .project⟩ "A" r hr [] [] [] "x"
  exact ⟨hsize, hr, hlaw.1.trans (by decide +kernel)⟩

end Session

end Lineage
