import Lineage.Proofs.Session.Faults
import Lineage.Proofs.Session.Truncation

/-!
# Walks without a limit

What stands above a root is a class with a record, and no class comes twice in a walk; so a walk
without a limit has at most one level more than there are classes. It ends because its visitor
answers, because no class has a parent any more, or because the chain comes back to itself, and it
is never too deep: the largest limit is out of reach.
-/

namespace Lineage

theorem Catalog.Passed.length_le {c : Catalog} {x : Scope} {bound : Nat} {root : Root}
    {seen known : List String} (h : c.Passed x bound root seen)
    (hknown : ∀ i r, c.ancestor? x root (i + 1) = some r → r.name ∈ known) :
    seen.length ≤ known.length + 1 := by
  have hnodup : seen.tail.Nodup := h.nodup.tail
  have hle := hnodup.length_le_of_subset (h.tail_subset hknown)
  rw [List.length_tail] at hle
  omega

theorem Ascends.hops_le {β : Type} {c : Catalog} {x : Scope} {bound : Nat}
    {visit : Level → Option β} {root : String} {seen : List String} {next : Root} {w : Walk β}
    {e : Effort} (h : Ascends c x bound visit root seen next w e) : e.hops ≤ w.levels.length := by
  induction h with
  | up _ _ _ _ _ ih =>
    simp only [Effort.hops_append, List.length_cons]
    omega
  | _ => exact Nat.zero_le _

/-- What turns back a walk without a limit is that it comes back to itself. -/
theorem Catalog.Denied.code {ix : Index} (hsize : ix.classCount < UInt32.size - 1) {x : Scope}
    {root : Root} {leaves : Level → Bool} {d : Diagnostic}
    (h : ix.catalog.Denied x (levelBound none) root leaves d) : d.code = 1001 := by
  obtain ⟨k, hk, hd, -⟩ := h
  obtain ⟨w, e, h, hend⟩ := exists_ascends_unlimited hsize x root
  obtain ⟨fault, hleast, hh, he, -⟩ := h.isLeast_halts
  cases hk.unique hleast
  cases hd.unique hh
  rw [he] at hend
  split at hend
  · cases hend
  · obtain ⟨-, hcyclic⟩ := hend
    cases hcyclic
    rfl

namespace Session

section
variable {ix : Index} (hsize : ix.classCount < UInt32.size - 1) {x : Context}
include hsize

theorem code_of_mem_performAll {ops : List Operation} {d : Diagnostic}
    (h : d ∈ ((start ix.catalog x none).performAll ops).diagnostics ∨
      d ∈ ((start ix.catalog x none).performAll ops).warned) : d.code = 1001 := by
  obtain ⟨fault, hfault⟩ := exists_fault ix.catalog x none
  obtain ⟨hd, hw⟩ := tells_performAll hfault ops
  have hop : ∃ op, fault op = some d := by
    rcases h with h | h
    · rw [hd, Diagnostic.mem_merge, List.mem_filterMap] at h
      rcases h with h | ⟨op, -, h⟩
      · cases h
      · exact ⟨op, h⟩
    · rw [hw, List.mem_filterMap] at h
      obtain ⟨op, -, h⟩ := h
      exact ⟨op, h⟩
  obtain ⟨op, hop⟩ := hop
  obtain ⟨root, leaves, -, hdenied⟩ := (hfault op d).mp hop
  exact hdenied.code hsize

end

/-- A walk without a limit shows at most one level more than the index has classes, no name twice,
and makes no more hops than it shows levels. Nothing is ever too deep. A walk that its visitor does
not end has come to the top of the chain, or back to a class that it has been to. -/
theorem unlimited_walk_ends {β : Type} (ix : Index) (hsize : ix.classCount < UInt32.size - 1)
    (x : Context) (ops : List Operation) (root : Root) (visit : Level → Option β) :
    let s := (start ix.catalog x none).performAll ops
    let walk := (s.walk root visit).1
    let t := (s.walk root visit).2
    walk.levels.length ≤ ix.classCount + 1 ∧ (walk.levels.map Level.name).Nodup ∧
      t.stats.superHops ≤ s.stats.superHops + walk.levels.length ∧
      (∀ d, d ∈ t.diagnostics ∨ d ∈ t.warned → d.code ≠ 1002) ∧
      (walk.found.isSome = true → t.diagnostics = s.diagnostics) ∧
      (walk.found = none →
        match ix.catalog.ancestor? x.scope root walk.levels.length with
        | none => t.diagnostics = s.diagnostics
        | some p => p.name ∈ walk.levels.map Level.name ∧
          .cyclic root.name p.name ∈ t.diagnostics) := by
  intro s walk t
  have hs : s.Serves ix.catalog x none := (serves_start _ _ _).performAll ops
  obtain ⟨w, e, h, hend⟩ := exists_ascends_unlimited hsize x.scope root
  obtain ⟨-, -, hp, -, -, -⟩ := h.halts Catalog.passed_nil rfl
  rw [List.nil_append] at hp
  obtain ⟨w', e', h', ha⟩ := h.answered visit
  obtain ⟨hw, -, hafter⟩ := answers_walk h' s hs
  have hwalk : walk = w' := hw
  have hdiagnostics : t.diagnostics = Diagnostic.merge s.diagnostics e'.faults :=
    hafter.diagnostics
  have hlength : w.levels.length ≤ ix.classCount + 1 := by
    have hle := hp.length_le fun _ _ => Index.mem_classNames_of_ancestor?
    rwa [List.length_map, ix.length_classNames] at hle
  rw [hwalk]
  refine ⟨ha.levels.length_le.trans hlength, ?_, ?_, fun d hd => ?_, fun hfound => ?_,
    fun hfound => ?_⟩
  · exact hp.nodup.sublist (ha.levels.sublist.map Level.name)
  · have hhops : t.stats.superHops = s.stats.superHops + e'.hops := hafter.superHops
    rw [hhops]
    exact Nat.add_le_add_left h'.hops_le _
  · have hcode : d.code = 1001 := by
      obtain ⟨fault, hdenied, -, htells⟩ := hs.exists_tells_walk root visit
      have hd : (d ∈ s.diagnostics ∨ d ∈ s.warned) ∨ fault = some d := by
        rw [show t.diagnostics = _ from htells.diagnostics, Diagnostic.mem_merge,
          show t.warned = _ from htells.warned, List.mem_append, Option.mem_toList] at hd
        tauto
      rcases hd with hd | hd
      · exact code_of_mem_performAll hsize hd
      · exact ((hdenied d).mp hd).code hsize
    rw [hcode]
    decide
  · rw [hdiagnostics, ha.faults, if_pos hfound]
    rfl
  · rw [ha.faults, if_neg (by simp [hfound])] at hdiagnostics
    rw [ha.ended hfound, hdiagnostics]
    cases hp : ix.catalog.ancestor? x.scope root w.levels.length with
    | none =>
      rw [hp] at hend
      have hnone : e.faults = [] := hend
      rw [hnone]
      rfl
    | some p =>
      rw [hp] at hend
      obtain ⟨hmem, hcyclic⟩ := hend
      refine ⟨hmem, ?_⟩
      rw [Diagnostic.mem_merge, hcyclic]
      exact .inr (List.mem_singleton.mpr rfl)

/-- A walk from a root outside of a loop has three levels, the root and the two classes. -/
theorem unlimited_walk_ends_loop :
    let s := start Index.loop.catalog ⟨0, .project⟩ none
    let chain := s.superChain (.node (.declared "C" (some "A")))
    Index.loop.classCount < UInt32.size - 1 ∧ chain.1 = ["C", "A", "B"] ∧ chain.1.length ≤ 3 ∧
      ∀ d ∈ chain.2.diagnostics, d.code ≠ 1002 := by
  intro s chain
  have hsize : Index.loop.classCount < UInt32.size - 1 := by decide +kernel
  obtain ⟨hlength, -, -, hcode, -, -⟩ := unlimited_walk_ends Index.loop hsize ⟨0, .project⟩ []
    (.node (.declared "C" (some "A"))) fun _ => (none : Option Unit)
  have hcount : Index.loop.classCount = 2 := by decide +kernel
  rw [hcount] at hlength
  refine ⟨hsize, by decide +kernel, ?_, fun d hd => hcode d (.inl hd)⟩
  show (List.map _ _).length ≤ 3
  rw [List.length_map]
  exact hlength

end Session

end Lineage
