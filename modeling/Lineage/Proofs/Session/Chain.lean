import Mathlib.Order.Bounds.Defs
import Lineage.Proofs.Session.Operation

/-!
# The extent of a chain

A walk that nobody answers shows the ancestors of its root up to the first that it has to leave
out, and reports what kept it from going on, if anything did. The invariant of the walk is
`Passed`: where it has been are the first ancestors, and it has had to stop at none of them.
-/

namespace Lineage

namespace Catalog

/-- A walk from `root` may have been to the ancestors with these names. -/
structure Passed (c : Catalog) (x : Scope) (bound : Nat) (root : Root) (seen : List String) :
    Prop where
  names : seen.map some = (List.range seen.length).map fun i => (c.ancestor? x root i).map Root.name
  goesOn : ∀ i < seen.length, ∀ fault, ¬ c.Halts x bound root i fault
  le : seen.length ≤ bound

section
variable {c : Catalog} {x : Scope} {bound : Nat} {root next : Root} {seen : List String}

theorem passed_nil : c.Passed x bound root [] :=
  ⟨rfl, by simp, by simp⟩

namespace Passed

theorem ancestor (h : c.Passed x bound root seen) {i : Nat} (hi : i < seen.length) :
    ∃ r, c.ancestor? x root i = some r ∧ r.name = seen[i] := by
  have hname : (seen.map some)[i]? =
      ((List.range seen.length).map fun i => (c.ancestor? x root i).map Root.name)[i]? := by
    rw [h.names]
  simp only [List.getElem?_map, List.getElem?_eq_getElem hi, List.getElem?_range hi,
    Option.map_some, Option.some.injEq] at hname
  exact Option.map_eq_some_iff.mp hname.symm

theorem mem_iff (h : c.Passed x bound root seen) {name : String} :
    name ∈ seen ↔ ∃ i < seen.length, ∃ r, c.ancestor? x root i = some r ∧ r.name = name := by
  constructor
  · intro hmem
    obtain ⟨i, hi, rfl⟩ := List.getElem_of_mem hmem
    exact ⟨i, hi, h.ancestor hi⟩
  · rintro ⟨i, hi, r, hr, rfl⟩
    obtain ⟨r', hr', hname⟩ := h.ancestor hi
    cases hr.symm.trans hr'
    rw [hname]
    exact List.getElem_mem hi

/-- No name comes twice, since the walk would have had to stop at the second. -/
theorem nodup (h : c.Passed x bound root seen) : seen.Nodup := by
  rw [List.Nodup, List.pairwise_iff_getElem]
  intro i j hi hj hij heq
  obtain ⟨p, hp, hpn⟩ := h.ancestor hi
  obtain ⟨q, hq, hqn⟩ := h.ancestor hj
  exact h.goesOn j hj _ (.cycle hq hij hp (by rw [hpn, hqn, heq]))

theorem not_halts (h : c.Passed x bound root seen) (hn : c.ancestor? x root seen.length = some next)
    (hmem : next.name ∉ seen) (hlt : seen.length < bound) (fault : Option Diagnostic) :
    ¬ c.Halts x bound root seen.length fault := by
  intro hh
  cases hh with
  | top hnone => simp [hn] at hnone
  | cycle hp hi hq hname =>
    cases hn.symm.trans hp
    exact hmem (h.mem_iff.mpr ⟨_, hi, _, hq, hname⟩)
  | tooDeep _ _ hfull => omega

theorem concat (h : c.Passed x bound root seen) (hn : c.ancestor? x root seen.length = some next)
    (hmem : next.name ∉ seen) (hlt : seen.length < bound) :
    c.Passed x bound root (seen ++ [next.name]) where
  names := by simp [List.range_succ, h.names, hn]
  goesOn i hi fault := by
    rw [List.length_append, List.length_singleton] at hi
    rcases Nat.lt_succ_iff_lt_or_eq.mp hi with hi | rfl
    · exact h.goesOn i hi fault
    · exact h.not_halts hn hmem hlt fault
  le := by
    rw [List.length_append, List.length_singleton]
    exact hlt

end Passed

end

end Catalog

open Catalog

theorem Ascends.halts {β : Type} {c : Catalog} {x : Scope} {bound : Nat} {root next : Root}
    {seen : List String} {w : Walk β} {e : Effort}
    (h : Ascends c x bound (fun _ => none) root.name seen next w e)
    (hp : c.Passed x bound root seen) (hn : c.ancestor? x root seen.length = some next) :
    ∃ fault, c.Halts x bound root (seen.length + w.levels.length) fault ∧
      c.Passed x bound root (seen ++ w.levels.map Level.name) ∧
      w.levels.map some = (List.range' seen.length w.levels.length).map (c.level? x root) ∧
      w.found = none ∧ e.faults = fault.toList := by
  induction h with
  | cycle hmem =>
    obtain ⟨i, hi, q, hq, hname⟩ := hp.mem_iff.mp hmem
    exact ⟨_, .cycle hn hi hq hname, by simpa using hp, rfl, rfl, rfl⟩
  | tooDeep hmem hfull =>
    have hle := hp.le
    refine ⟨_, .tooDeep hn (fun i hi q hq hname => ?_) (by simp; omega), by simpa using hp, rfl,
      rfl, rfl⟩
    exact hmem (hp.mem_iff.mpr ⟨i, hi, q, hq, hname⟩)
  | found _ _ hv => cases hv
  | top hmem hlt _ hparent =>
    refine ⟨none, .top ?_, hp.concat hn hmem hlt, ?_, rfl, rfl⟩
    · simp [ancestor?, hn, hparent]
    · simp [level?, hn]
  | @up seen next parent w e hmem hlt _ hparent _ ih =>
    have hn' : c.ancestor? x root (seen ++ [next.name]).length = some (.node parent) := by
      simp [ancestor?, hn, hparent]
    obtain ⟨fault, hh, hp', hl, hf, he⟩ := ih (hp.concat hn hmem hlt) hn'
    have hk : (seen ++ [next.name]).length + w.levels.length =
        seen.length + (w.levels.length + 1) := by
      simp only [List.length_append, List.length_singleton]
      omega
    refine ⟨fault, hk ▸ hh, by simpa using hp', ?_, hf, by simpa using he⟩
    rw [List.length_cons, List.range'_succ, List.map_cons, List.map_cons, hl]
    simp [level?, hn]

namespace Session

theorem Serves.nodup_superChain {c : Catalog} {x : Context} {limit : Option UInt32} {s : Session}
    (hs : s.Serves c x limit) (root : Root) : (s.superChain root).1.Nodup := by
  obtain ⟨w, e, h⟩ := exists_ascends c x.scope (levelBound limit)
    (fun _ => (none : Option Unit)) root.name [] root
  obtain ⟨-, -, hp, -⟩ := h.halts passed_nil rfl
  rw [(answers_superChain h s hs).1]
  exact hp.nodup

/-- A walk shows the ancestors before the first at which it halts, each with its distance from the
root, and adds the fault that halts it there to what the session has to report. -/
theorem walk_eq_ancestors (ix : Index) (x : Context) (limit : Option UInt32)
    (ops : List Operation) (root : Root) :
    let s := (start ix.catalog x limit).performAll ops
    let chain := s.superChain root
    ∃ k fault,
      IsLeast {i | ∃ d, ix.catalog.Halts x.scope (levelBound limit) root i d} k ∧
      ix.catalog.Halts x.scope (levelBound limit) root k fault ∧
      chain.1.map some =
        (List.range k).map (fun i => (ix.catalog.ancestor? x.scope root i).map Root.name) ∧
      chain.1.Nodup ∧
      chain.2.diagnostics = s.diagnostics ++ fault.toList.filter (· ∉ s.diagnostics) ∧
      ∀ β : Type,
        let walk := s.walk root fun _ => (none : Option β)
        walk.1.levels.map some = (List.range k).map (ix.catalog.level? x.scope root) ∧
        walk.1.found = none ∧
        walk.2.diagnostics = chain.2.diagnostics := by
  intro s chain
  have hs : s.Serves ix.catalog x limit := (serves_start _ _ _).performAll ops
  obtain ⟨w, e, h⟩ := exists_ascends ix.catalog x.scope (levelBound limit)
    (fun _ => (none : Option Unit)) root.name [] root
  obtain ⟨fault, hh, hp, hl, -, he⟩ := h.halts passed_nil rfl
  obtain ⟨hchain, -, hafter⟩ := answers_superChain h s hs
  rw [List.length_nil, Nat.zero_add] at hh
  rw [List.nil_append] at hp
  rw [List.length_nil, ← List.range_eq_range'] at hl
  refine ⟨w.levels.length, fault, ⟨⟨fault, hh⟩, ?_⟩, hh, ?_, ?_, ?_, fun β => ?_⟩
  · rintro i ⟨d, hd⟩
    refine Nat.le_of_not_lt fun hlt => ?_
    exact hp.goesOn i (by rwa [List.length_map]) d hd
  · rw [hchain, hp.names, List.length_map]
  · exact hchain ▸ hp.nodup
  · rw [hafter.diagnostics, he, Diagnostic.merge_toList]
  · obtain ⟨hwalk, -, hafter'⟩ := answers_walk (h.unanswered (β := β)) s hs
    exact ⟨by rw [hwalk, hl], by rw [hwalk], hafter'.diagnostics.trans hafter.diagnostics.symm⟩

end Session

end Lineage
