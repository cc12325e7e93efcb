import Mathlib.Data.List.DropRight
import Mathlib.Order.Bounds.Basic
import Lineage.Proofs.Index
import Lineage.Proofs.Session.Chain

/-!
# Faults

A walk that is turned back has a fault. The fault depends on the root, on what stands above it and
on where the visitor would leave the walk, but not on the session (`Catalog.Denied`). The log tells
each of these walks by a warning. The diagnostics are kept for a user, who is told a fault once:
they are the faults since the diagnostics were last taken, without those that an earlier one equals.
-/

namespace Lineage

/-- The fault that a warning tells of. -/
def Event.fault? : Event → Option Diagnostic
  | cyclicChain root reached => some (.cyclic root reached)
  | chainTooDeep root _ limit => some (.tooDeep root limit)
  | _ => none

theorem Event.isSome_fault? (e : Event) : e.fault?.isSome = decide (e.record.level = .warn) := by
  cases e <;> rfl

theorem Diagnostic.merge_nil (ds : List Diagnostic) : merge [] ds = ds.eraseDups := by
  induction ds using List.reverseRecOn with
  | nil => rfl
  | append_singleton ds d ih =>
    rw [merge_append, merge_cons, List.eraseDups_append, ih]
    by_cases hd : d ∈ ds
    · have hnew : [d].removeAll ds = [] := by simp [List.removeAll, hd]
      rw [if_pos (List.mem_eraseDups.mpr hd), hnew]
      exact (List.append_nil _).symm
    · have hnew : [d].removeAll ds = [d] := by simp [List.removeAll, hd]
      rw [if_neg (mt List.mem_eraseDups.mp hd), hnew]
      rfl

theorem Diagnostic.nodup_merge {known : List Diagnostic} (h : known.Nodup)
    (ds : List Diagnostic) : (merge known ds).Nodup := by
  induction ds generalizing known with
  | nil => exact h
  | cons d ds ih =>
    rw [merge_cons]
    split
    · exact ih h
    · next hd =>
      have hnew : ∀ e ∈ known, e ≠ d := by
        rintro e he rfl
        exact hd he
      exact ih (List.nodup_append.mpr ⟨h, by simp, by simpa using hnew⟩)

namespace Catalog

section
variable {c : Catalog} {x : Scope} {bound k : Nat} {root : Root}

theorem Halts.unique {fault fault' : Option Diagnostic} (h : c.Halts x bound root k fault)
    (h' : c.Halts x bound root k fault') : fault = fault' := by
  cases h with
  | top hnone =>
    cases h' with
    | top _ => rfl
    | cycle hp _ _ _ => cases hnone.symm.trans hp
    | tooDeep hp _ _ => cases hnone.symm.trans hp
  | cycle hp hi hq hname =>
    cases h' with
    | top hnone => cases hnone.symm.trans hp
    | cycle hp' _ _ _ =>
      cases hp.symm.trans hp'
      rfl
    | tooDeep hp' hfresh _ =>
      cases hp.symm.trans hp'
      exact absurd hname (hfresh _ hi _ hq)
  | tooDeep hp hfresh _ =>
    cases h' with
    | top hnone => cases hnone.symm.trans hp
    | cycle hp' hi hq hname =>
      cases hp.symm.trans hp'
      exact absurd hname (hfresh _ hi _ hq)
    | tooDeep _ _ _ => rfl

end

/-- A walk that is left at the levels of which `leaves` holds has the fault `d`: it comes to where
it has to halt, and what makes it halt is `d`. -/
def Denied (c : Catalog) (x : Scope) (bound : Nat) (root : Root) (leaves : Level → Bool)
    (d : Diagnostic) : Prop :=
  ∃ k, IsLeast {i | ∃ fault, c.Halts x bound root i fault} k ∧ c.Halts x bound root k (some d) ∧
    ∀ i < k, ∀ l, c.level? x root i = some l → leaves l = false

end Catalog

theorem Ascends.isLeast_halts {β : Type} {c : Catalog} {x : Scope} {bound : Nat} {root : Root}
    {w : Walk β} {e : Effort} (h : Ascends c x bound (fun _ => none) root.name [] root w e) :
    ∃ fault, IsLeast {i | ∃ fault, c.Halts x bound root i fault} w.levels.length ∧
      c.Halts x bound root w.levels.length fault ∧ e.faults = fault.toList ∧
      ∀ l, l ∈ w.levels ↔ ∃ i < w.levels.length, c.level? x root i = some l := by
  obtain ⟨fault, hh, hp, hl, -, he⟩ := h.halts Catalog.passed_nil rfl
  rw [List.length_nil, Nat.zero_add] at hh
  rw [List.nil_append] at hp
  rw [List.length_nil, ← List.range_eq_range'] at hl
  refine ⟨fault, ⟨⟨fault, hh⟩, ?_⟩, hh, he, fun l => ?_⟩
  · rintro i ⟨d, hd⟩
    refine Nat.le_of_not_lt fun hlt => ?_
    exact hp.goesOn i (by rwa [List.length_map]) d hd
  · have hsome : l ∈ w.levels ↔ some l ∈ w.levels.map some := by simp
    rw [hsome, hl]
    simp

/-- The fault of a walk, which has none if its visitor answers. -/
theorem exists_ascends_fault {β : Type} (c : Catalog) (x : Scope) (bound : Nat) (root : Root)
    (visit : Level → Option β) :
    ∃ w e, Ascends c x bound visit root.name [] root w e ∧ ∃ fault : Option Diagnostic,
      e.faults = fault.toList ∧ (w.found.isSome = true → fault = none) ∧
      ∀ d, fault = some d ↔ c.Denied x bound root (fun l => (visit l).isSome) d := by
  obtain ⟨w, e, h⟩ := exists_ascends c x bound (fun _ => (none : Option Unit)) root.name [] root
  obtain ⟨w', e', h', ha⟩ := h.answered visit
  obtain ⟨fault, hleast, hh, he, hmem⟩ := h.isLeast_halts
  -- The levels of the walk are the ancestors below the place where it halts.
  have hlevels : (∀ i < w.levels.length, ∀ l, c.level? x root i = some l →
      (visit l).isSome = false) ↔ ∀ l ∈ w.levels, visit l = none := by
    simp only [hmem, Option.isSome_eq_false_iff, Option.isNone_iff_eq_none]
    exact ⟨fun h l ⟨i, hi, hl⟩ => h i hi l hl, fun h i hi l hl => h l ⟨i, hi, hl⟩⟩
  refine ⟨w', e', h', if w'.found.isSome then none else fault, ?_, fun hf => if_pos hf, ?_⟩
  · rw [ha.faults, he]
    split <;> rfl
  · intro d
    cases hfound : w'.found with
    | some a =>
      rw [ha.found] at hfound
      obtain ⟨l, hmem, hv⟩ := List.exists_of_findSome?_eq_some hfound
      refine ⟨nofun, ?_⟩
      rintro ⟨k, hk, -, hleft⟩
      cases hk.unique hleast
      have hnone := hlevels.mp hleft l hmem
      cases hnone.symm.trans hv
    | none =>
      rw [ha.found, List.findSome?_eq_none_iff] at hfound
      show fault = some d ↔ _
      constructor
      · rintro rfl
        exact ⟨_, hleast, hh, hlevels.mpr hfound⟩
      · rintro ⟨k, hk, hd, -⟩
        cases hk.unique hleast
        exact hh.unique hd

namespace Session

/-! ## Warnings -/

/-- The warnings in the log. -/
def warnings (s : Session) : List Event := s.log.toList.filter (·.record.level = .warn)

/-- The faults that the log tells of. -/
def warned (s : Session) : List Diagnostic := s.log.toList.filterMap Event.fault?

theorem map_fault?_warnings (s : Session) : s.warnings.map Event.fault? = s.warned.map some := by
  unfold warnings warned
  induction s.log.toList with
  | nil => rfl
  | cons e log ih =>
    have he := e.isSome_fault?
    cases hf : e.fault? with
    | none =>
      rw [hf] at he
      rw [List.filter_cons_of_neg (by simpa using he.symm), List.filterMap_cons_none hf, ih]
    | some d =>
      rw [hf] at he
      rw [List.filter_cons_of_pos (by simpa using he.symm), List.filterMap_cons_some hf,
        List.map_cons, List.map_cons, hf, ih]

theorem warned_emit (s : Session) (e : Event) :
    (s.emit e).warned = s.warned ++ e.fault?.toList := by
  simp only [warned, emit, Array.toList_push, List.filterMap_append]
  cases h : e.fault? <;> simp [h]

theorem warned_report (s : Session) (d : Diagnostic) : (s.report d).warned = s.warned := by
  unfold report
  split <;> rfl

theorem warned_resolveClass (s : Session) (name : String) :
    (s.resolveClass name).2.warned = s.warned := by
  rw [resolveClass_eq]
  split
  · rfl
  · simp [warned, Event.fault?]

theorem warned_parentOf (s : Session) (r : Root) : (s.parentOf r).2.warned = s.warned := by
  cases r with
  | detached name => rfl
  | node n =>
    simp only [parentOf, superType]
    cases n.superName with
    | none => rfl
    | some name =>
      have h := warned_resolveClass s name
      rcases hr : s.resolveClass name with ⟨_ | parent, t⟩ <;> simp only [hr] at h ⊢
      · rw [warned_emit, h]
        exact List.append_nil _
      · exact h

/-- `t` is `s` after a walk with this fault, if it had one: the diagnostics may know the fault
already, and the log tells it in any case. -/
structure Tells (s : Session) (fault : Option Diagnostic) (t : Session) : Prop where
  diagnostics : t.diagnostics = Diagnostic.merge s.diagnostics fault.toList
  warned : t.warned = s.warned ++ fault.toList

theorem Tells.emit {s t : Session} {fault : Option Diagnostic} (h : s.Tells fault t) {e : Event}
    (he : e.fault? = none) : s.Tells fault (t.emit e) where
  diagnostics := h.diagnostics
  warned := by rw [warned_emit, he, Option.toList_none, List.append_nil, h.warned]

section
variable {β : Type} {c : Catalog} {x : Context} {limit : Option UInt32} {s : Session}

theorem Serves.warned_climb {visit : Level → Option β} {root : String} {bound : Nat}
    {seen : List String} {next : Root} {w : Walk β} {e : Effort} (hs : s.Serves c x limit)
    (h : Ascends c x.scope bound visit root seen next w e) {g : ChainGuard} (hg : g.Holds seen)
    (hb : g.maxDepth = bound) :
    (climb visit root s g next).2.warned = s.warned ++ e.faults := by
  induction h generalizing s g with
  | cycle hmem =>
    rw [climb_of_cycle (hg.enter_of_mem hmem), reportCycle, warned_report, warned_emit]
    rfl
  | tooDeep hmem hfull =>
    rw [climb_of_tooDeep (hg.enter_of_full hmem (hb ▸ hfull)), reportDepth, warned_report,
      warned_emit, hb]
    rfl
  | @found seen next answer hmem hlt hv =>
    obtain ⟨g', hg, hg', -⟩ := hg.enter_of_room hmem (hb ▸ hlt)
    have hd : g'.depth = seen.length + 1 := by simp [hg'.depth]
    rw [climb_of_found hg hd hv]
    exact (List.append_nil _).symm
  | @top seen next hmem hlt hv hp =>
    obtain ⟨g', hg, hg', -⟩ := hg.enter_of_room hmem (hb ▸ hlt)
    have hd : g'.depth = seen.length + 1 := by simp [hg'.depth]
    have ha := (answers_parentOf next s hs).1
    rw [hp] at ha
    rw [climb_of_top hg hd hv (Prod.ext ha rfl), warned_parentOf]
    exact (List.append_nil _).symm
  | @up seen next parent w e hmem hlt hv hp _ ih =>
    obtain ⟨g', hg, hg', hb'⟩ := hg.enter_of_room hmem (hb ▸ hlt)
    have hd : g'.depth = seen.length + 1 := by simp [hg'.depth]
    obtain ⟨ha, ht, -⟩ := answers_parentOf next s hs
    rw [hp] at ha
    rw [climb_of_up hg hd hv (Prod.ext ha rfl)]
    show (climb visit root _ g' (.node parent)).2.warned = s.warned ++ e.faults
    rw [ih ht.countHop hg' (hb'.trans hb)]
    exact congrArg (· ++ e.faults) (warned_parentOf s next)

/-- A walk tells its fault, and it has one just if it is turned back. -/
theorem Serves.exists_tells_walk (hs : s.Serves c x limit) (root : Root)
    (visit : Level → Option β) :
    ∃ fault, (∀ d, fault = some d ↔
        c.Denied x.scope (levelBound limit) root (fun l => (visit l).isSome) d) ∧
      ((s.walk root visit).1.found.isSome = true → fault = none) ∧
      s.Tells fault (s.walk root visit).2 := by
  obtain ⟨w, e, h, fault, he, hanswer, hdenied⟩ :=
    exists_ascends_fault c x.scope (levelBound limit) root visit
  obtain ⟨hw, -, hafter⟩ := answers_walk h s hs
  refine ⟨fault, hdenied, ?_, ?_, ?_⟩
  · rw [hw]
    exact hanswer
  · rw [hafter.diagnostics, he]
  · rw [← he]
    exact hs.warned_climb h (hs.limit ▸ ChainGuard.holds_ofLimit _)
      (hs.limit ▸ ChainGuard.maxDepth_ofLimit limit)

end

/-! ## Operations -/

/-- The walk that an operation makes: its root, and the levels at which it is left. -/
def Operation.walk? (c : Catalog) (x : Scope) : Operation → Option (Root × (Level → Bool))
  | .resolveClass _
  | .takeDiagnostics
  | .superType _ => none
  | .walk root visit => some (root, fun l => (visit l).isSome)
  | .findField root name
  | .fieldTypes root name => some (root, fun l => (c.field? l.name name x).isSome)
  | .findMethod root name =>
    some (root, fun l => ((c.method? l.name name x).or (c.static? l.name name x)).isSome)
  | .superChain root
  | .collect root _ _
  | .collectFields root _
  | .collectStatics root _
  | .collectMethods root _ _ => some (root, fun _ => false)

/-- The walk of an operation is turned back with the fault `d`. -/
def Operation.Denied (c : Catalog) (x : Scope) (bound : Nat) (op : Operation) (d : Diagnostic) :
    Prop :=
  ∃ root leaves, op.walk? c x = some (root, leaves) ∧ c.Denied x bound root leaves d

def Operation.isTake : Operation → Bool
  | .takeDiagnostics => true
  | _ => false

/-- The operations after the last that took the diagnostics. -/
def sinceTaken (ops : List Operation) : List Operation := ops.rtakeWhile (!·.isTake)

section
variable {c : Catalog} {x : Context} {limit : Option UInt32} {s : Session}

theorem Serves.exists_tells_perform (hs : s.Serves c x limit) {op : Operation}
    (hop : op.isTake = false) :
    ∃ fault, (∀ d, fault = some d ↔ op.Denied c x.scope (levelBound limit) d) ∧
      s.Tells fault (s.perform op).2 := by
  -- An operation with a walk tells what its walk tells, and any other has nothing to tell.
  have hwalk : ∀ {β : Type} (root : Root) (visit : Level → Option β) (leaves : Level → Bool),
      op.walk? c x.scope = some (root, leaves) → (∀ l, (visit l).isSome = leaves l) →
      ∃ fault, (∀ d, fault = some d ↔ op.Denied c x.scope (levelBound limit) d) ∧
        s.Tells fault (s.walk root visit).2 := by
    intro β root visit leaves hop hvisit
    obtain ⟨fault, hdenied, -, htells⟩ := hs.exists_tells_walk root visit
    refine ⟨fault, fun d => ?_, htells⟩
    rw [hdenied, funext hvisit]
    refine ⟨fun h => ⟨root, leaves, hop, h⟩, ?_⟩
    rintro ⟨root', leaves', hop', h⟩
    cases hop.symm.trans hop'
    exact h
  have hquiet : ∀ {t : Session}, op.walk? c x.scope = none → t.diagnostics = s.diagnostics →
      t.warned = s.warned →
      ∃ fault, (∀ d, fault = some d ↔ op.Denied c x.scope (levelBound limit) d) ∧
        s.Tells fault t := by
    intro t hop hd hw
    refine ⟨none, fun d => ⟨nofun, ?_⟩, hd, hw.trans (List.append_nil _).symm⟩
    rintro ⟨root, leaves, hop', -⟩
    cases hop.symm.trans hop'
  cases op with
  | takeDiagnostics => cases hop
  | resolveClass name =>
    have hafter := (answers_resolveClass name s hs).2.2
    exact hquiet rfl hafter.diagnostics (warned_resolveClass s name)
  | superType root =>
    have hafter := (answers_parentOf root s hs).2.2
    exact hquiet rfl hafter.diagnostics (warned_parentOf s root)
  | walk root visit => exact hwalk root visit _ rfl fun _ => rfl
  | superChain root => exact hwalk root (fun _ => (none : Option Unit)) _ rfl fun _ => rfl
  | findField root name =>
    obtain ⟨fault, hdenied, htells⟩ := hwalk root
      (fun l => s.catalog.field? l.name name s.scope) _ rfl (by rw [hs.catalog, hs.scope]; simp)
    exact ⟨fault, hdenied, htells.emit rfl⟩
  | findMethod root name =>
    obtain ⟨fault, hdenied, htells⟩ := hwalk root
      (fun l => (s.catalog.method? l.name name s.scope).or (s.catalog.static? l.name name s.scope))
      _ rfl (by rw [hs.catalog, hs.scope]; simp)
    exact ⟨fault, hdenied, htells.emit rfl⟩
  | fieldTypes root name =>
    exact hwalk root (fun l => (s.catalog.field? l.name name s.scope).map FieldDef.types) _ rfl
      (by rw [hs.catalog, hs.scope]; simp)
  | collect root matcher asField =>
    obtain ⟨fault, hdenied, htells⟩ := hwalk root (fun _ => (none : Option Unit)) _ rfl fun _ => rfl
    exact ⟨fault, hdenied, htells.emit rfl⟩
  | collectFields root matcher =>
    exact hwalk root (fun _ => (none : Option Unit)) _ rfl fun _ => rfl
  | collectStatics root matcher =>
    exact hwalk root (fun _ => (none : Option Unit)) _ rfl fun _ => rfl
  | collectMethods root matcher asField =>
    exact hwalk root (fun _ => (none : Option Unit)) _ rfl fun _ => rfl

theorem not_denied_of_isTake {bound : Nat} {op : Operation} (hop : op.isTake = true)
    (d : Diagnostic) : ¬ op.Denied c x.scope bound d := by
  rintro ⟨root, leaves, hwalk, -⟩
  cases op with
  | takeDiagnostics => cases hwalk
  | _ => cases hop

/-- Every operation has one fault or none, in whatever session it is performed. -/
theorem exists_fault (c : Catalog) (x : Context) (limit : Option UInt32) :
    ∃ fault : Operation → Option Diagnostic,
      ∀ op d, fault op = some d ↔ op.Denied c x.scope (levelBound limit) d := by
  have hop : ∀ op : Operation, ∃ fault : Option Diagnostic,
      ∀ d, fault = some d ↔ op.Denied c x.scope (levelBound limit) d := by
    intro op
    cases htake : op.isTake with
    | true => exact ⟨none, fun d => ⟨nofun, fun h => absurd h (not_denied_of_isTake htake d)⟩⟩
    | false =>
      obtain ⟨fault, hdenied, -⟩ := (serves_start c x limit).exists_tells_perform htake
      exact ⟨fault, hdenied⟩
  exact ⟨fun op => (hop op).choose, fun op => (hop op).choose_spec⟩

section
variable {fault : Operation → Option Diagnostic}
  (hfault : ∀ op d, fault op = some d ↔ op.Denied c x.scope (levelBound limit) d)
include hfault

theorem Serves.tells_perform (hs : s.Serves c x limit) {op : Operation}
    (hop : op.isTake = false) : s.Tells (fault op) (s.perform op).2 := by
  obtain ⟨fault', hfault', htells⟩ := hs.exists_tells_perform hop
  have heq : fault' = fault op := Option.ext fun d => (hfault' d).trans (hfault op d).symm
  exact heq ▸ htells

/-- The diagnostics are taken away and the warnings stay. -/
theorem tells_performAll (ops : List Operation) :
    let s := (start c x limit).performAll ops
    s.diagnostics = Diagnostic.merge [] ((sinceTaken ops).filterMap fault) ∧
      s.warned = ops.filterMap fault := by
  induction ops using List.reverseRecOn with
  | nil => exact ⟨rfl, rfl⟩
  | append_singleton ops op ih =>
    intro t
    obtain ⟨hd, hw⟩ := ih
    have hs : ((start c x limit).performAll ops).Serves c x limit :=
      (serves_start c x limit).performAll ops
    have ht : t = (((start c x limit).performAll ops).perform op).2 := List.foldl_concat ..
    rw [ht, sinceTaken, List.rtakeWhile_concat, List.filterMap_append]
    cases htake : op.isTake with
    | true =>
      have hnone : fault op = none := by
        rw [Option.eq_none_iff_forall_ne_some]
        exact fun d hd => not_denied_of_isTake htake d ((hfault op d).mp hd)
      cases op <;> cases htake
      refine ⟨rfl, ?_⟩
      rw [List.filterMap_cons_none hnone, List.filterMap_nil, List.append_nil, ← hw]
      rfl
    | false =>
      have htells := hs.tells_perform hfault htake
      have hone : [op].filterMap fault = (fault op).toList := by cases h : fault op <;> simp [h]
      rw [Bool.not_false, if_pos rfl, List.filterMap_append, hone, Diagnostic.merge_append]
      exact ⟨hd ▸ htells.diagnostics, hw ▸ htells.warned⟩

end

/-- The diagnostics of a session are the faults of its walks since they were last taken, each where
it first occurred. Every walk that is turned back has one warning in the log, also where its fault
is known; one that its visitor leaves has neither. Taking the diagnostics changes nothing else, and
a fault that occurs after that is new. -/
theorem diagnostics_eq_faults (c : Catalog) (x : Context) (limit : Option UInt32) :
    ∃ fault : Operation → Option Diagnostic,
      (∀ op d, fault op = some d ↔ op.Denied c x.scope (levelBound limit) d) ∧
      ∀ ops : List Operation,
        let s := (start c x limit).performAll ops
        let taken := (s.perform .takeDiagnostics).2
        s.diagnostics = ((sinceTaken ops).filterMap fault).eraseDups ∧
        s.diagnostics.Nodup ∧
        s.warnings.map Event.fault? = (ops.filterMap fault).map some ∧
        (∀ (β : Type) (root : Root) (visit : Level → Option β),
          let walk := s.walk root visit
          ∃ f : Option Diagnostic,
            (∀ d, f = some d ↔
              c.Denied x.scope (levelBound limit) root (fun l => (visit l).isSome) d) ∧
            (walk.1.found.isSome = true → f = none) ∧
            walk.2.diagnostics = s.diagnostics ++ f.toList.filter (· ∉ s.diagnostics) ∧
            walk.2.warnings.map Event.fault? =
              s.warnings.map Event.fault? ++ f.toList.map some) ∧
        (s.perform .takeDiagnostics).1 = .diagnostics s.diagnostics ∧
        taken = { s with diagnostics := [] } ∧
        ∀ op d, fault op = some d → (taken.perform op).2.diagnostics = [d] := by
  obtain ⟨fault, hfault⟩ := exists_fault c x limit
  refine ⟨fault, hfault, fun ops => ?_⟩
  intro s taken
  obtain ⟨hd, hw⟩ := tells_performAll hfault ops
  have hs : s.Serves c x limit := (serves_start c x limit).performAll ops
  refine ⟨hd.trans (Diagnostic.merge_nil _), ?_, ?_, fun β root visit => ?_, rfl, rfl,
    fun op d hop => ?_⟩
  · show s.diagnostics.Nodup
    rw [hd]
    exact Diagnostic.nodup_merge List.nodup_nil _
  · rw [map_fault?_warnings, hw]
  · obtain ⟨f, hdenied, hanswer, htells⟩ := hs.exists_tells_walk root visit
    refine ⟨f, hdenied, hanswer, ?_, ?_⟩
    · rw [htells.diagnostics, Diagnostic.merge_toList]
    · rw [map_fault?_warnings, map_fault?_warnings, htells.warned, List.map_append]
  · have htake : op.isTake = false := by
      rw [← Bool.not_eq_true]
      exact fun h => not_denied_of_isTake h d ((hfault op d).mp hop)
    have htaken : taken.Serves c x limit := hs.takeDiagnostics
    rw [(htaken.tells_perform hfault htake).diagnostics, hop]
    rfl

/-- A loop is reported once, warned of each time, and reported again when it has been taken. -/
example :
    let chain := Operation.superChain (.node (.declared "A" (some "B")))
    let fresh := start Index.loop.catalog ⟨0, .project⟩
    let s := fresh.performAll [chain, .takeDiagnostics, chain, chain]
    s.diagnostics = [.cyclic "A" "A"] ∧ s.warnings.length = 3 := by
  decide +kernel

end

end Session

end Lineage
