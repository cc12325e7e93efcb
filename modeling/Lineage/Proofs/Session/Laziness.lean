import Lineage.Proofs.Session.Faults

/-!
# What a look-up costs

A look-up goes no further than the class that decides it. Each level it leaves costs a hop and a
call for the parent, so the class at position `k` is found by `k` of both, and nothing above it is
seen: neither a missing parent nor a cycle nor the limit. A look-up that nothing decides goes
through the whole chain, and is charged for the hop onto a level that the guard refuses.
-/

namespace Lineage

section
variable {β : Type} {c : Catalog} {x : Scope} {bound : Nat} {visit : Level → Option β}
  {root : String} {seen : List String} {next : Root} {w : Walk β} {e : Effort}

/-- There is a hop for each level but the root's, and one onto the level that is refused. -/
theorem Ascends.hops_add_one (h : Ascends c x bound visit root seen next w e) :
    e.hops + 1 = w.levels.length + e.faults.length := by
  induction h with
  | up _ _ _ _ _ ih =>
    simp only [Effort.hops_append, Effort.faults_append, List.length_append, List.length_cons,
      List.length_nil]
    omega
  | _ => rfl

/-- A walk that is answered has called once for each hop, and its last level is the first that has
an answer. -/
theorem Ascends.of_found (h : Ascends c x bound visit root seen next w e)
    (hf : w.found.isSome = true) :
    e.asked.length = e.hops ∧ e.faults = [] ∧
      w.levels.findIdx? (fun l => (visit l).isSome) = some e.hops := by
  induction h with
  | cycle _ => cases hf
  | tooDeep _ _ => cases hf
  | found _ _ hv => exact ⟨rfl, rfl, by simp [List.findIdx?_cons, hv]⟩
  | top _ _ _ _ => cases hf
  | up _ _ hv hp _ ih =>
    obtain ⟨hasked, hfaults, hidx⟩ := ih hf
    obtain ⟨name, hname, -⟩ := Option.bind_eq_some_iff.mp hp
    refine ⟨?_, hfaults, ?_⟩
    · simp only [Effort.asked_append, Effort.hops_append, List.length_append, hname,
        Option.toList_some, List.length_singleton, List.length_nil, hasked]
      omega
    · simp [List.findIdx?_cons, hv, hidx, Nat.add_comm]

end

namespace Session

section
variable (s : Session)

theorem warnings_emit (e : Event) :
    (s.emit e).warnings = s.warnings ++ [e].filter (·.record.level = .warn) := by
  simp only [warnings, emit, Array.toList_push, List.filter_append]

theorem warnings_resolveClass (name : String) :
    (s.resolveClass name).2.warnings = s.warnings := by
  rw [resolveClass_eq]
  split
  · rfl
  · exact (s.warnings_emit (.classLookup name _)).trans (List.append_nil _)

theorem warnings_parentOf (r : Root) : (s.parentOf r).2.warnings = s.warnings := by
  cases r with
  | detached name => rfl
  | node n =>
    simp only [parentOf, superType]
    cases n.superName with
    | none => rfl
    | some name =>
      have h := s.warnings_resolveClass name
      rcases hr : s.resolveClass name with ⟨_ | parent, t⟩ <;> simp only [hr] at h ⊢
      · rw [warnings_emit, h]
        exact List.append_nil _
      · exact h

end

section
variable {β : Type} {c : Catalog} {x : Context} {limit : Option UInt32} {s : Session}

/-- A walk that is answered warns of nothing. -/
theorem Serves.warnings_climb {visit : Level → Option β} {root : String} {bound : Nat}
    {seen : List String} {next : Root} {w : Walk β} {e : Effort} (hs : s.Serves c x limit)
    (h : Ascends c x.scope bound visit root seen next w e) {g : ChainGuard} (hg : g.Holds seen)
    (hb : g.maxDepth = bound) (hf : w.found.isSome = true) :
    (climb visit root s g next).2.warnings = s.warnings := by
  induction h generalizing s g with
  | cycle _ => cases hf
  | tooDeep _ _ => cases hf
  | @found seen next answer hmem hlt hv =>
    obtain ⟨g', hg, hg', -⟩ := hg.enter_of_room hmem (hb ▸ hlt)
    have hd : g'.depth = seen.length + 1 := by simp [hg'.depth]
    rw [climb_of_found hg hd hv]
  | top _ _ _ _ => cases hf
  | @up seen next parent w e hmem hlt hv hp _ ih =>
    obtain ⟨g', hg, hg', hb'⟩ := hg.enter_of_room hmem (hb ▸ hlt)
    have hd : g'.depth = seen.length + 1 := by simp [hg'.depth]
    obtain ⟨ha, ht, -⟩ := answers_parentOf next s hs
    rw [hp] at ha
    rw [climb_of_up hg hd hv (Prod.ext ha rfl)]
    show (climb visit root _ g' (.node parent)).2.warnings = s.warnings
    rw [ih ht.countHop hg' (hb'.trans hb) hf]
    exact s.warnings_parentOf next

end

/-! ## Look-ups -/

/-- `t` is `s` after a look-up along `chain`, which the first class of which `declares` holds
decides. `fault` is what keeps a walk from going on above the chain, if anything does. -/
structure LooksUp (s : Session) (chain : List String) (fault : Option Diagnostic)
    (declares : String → Bool) (t : Session) : Prop where
  decided : ∀ k, chain.findIdx? declares = some k →
    t.stats.superHops = s.stats.superHops + k ∧
    t.stats.classLookups + t.stats.memoHits = s.stats.classLookups + s.stats.memoHits + k ∧
    t.diagnostics = s.diagnostics ∧ t.warnings = s.warnings
  undecided : chain.findIdx? declares = none →
    t.stats.superHops =
      s.stats.superHops + (chain.length - 1) + if fault.isSome then 1 else 0

section
variable {s t : Session} {chain : List String} {fault : Option Diagnostic}
  {declares : String → Bool}

/-- Only the log is written after the walk of a look-up, and not with a warning. -/
theorem LooksUp.emit (h : s.LooksUp chain fault declares t) {e : Event}
    (he : decide (e.record.level = .warn) = false) : s.LooksUp chain fault declares (t.emit e) where
  decided k hk := by
    obtain ⟨hhops, hcalls, hdiagnostics, hwarnings⟩ := h.decided k hk
    refine ⟨hhops, hcalls, hdiagnostics, ?_⟩
    rw [warnings_emit, hwarnings, List.filter_cons_of_neg (by simpa using he)]
    exact List.append_nil _
  undecided := h.undecided

end

section
variable {β : Type} {c : Catalog} {x : Context} {limit : Option UInt32} {s : Session} {root : Root}

/-- The chain of a session ends where a walk has to halt. -/
theorem Serves.exists_halts (hs : s.Serves c x limit) (root : Root) :
    ∃ w e fault, Ascends c x.scope (levelBound limit) (fun _ => (none : Option Unit)) root.name []
        root w e ∧
      (s.superChain root).1 = w.levels.map Level.name ∧ e.faults = fault.toList ∧
      IsLeast {i | ∃ d, c.Halts x.scope (levelBound limit) root i d} w.levels.length ∧
      c.Halts x.scope (levelBound limit) root w.levels.length fault := by
  obtain ⟨w, e, h⟩ := exists_ascends c x.scope (levelBound limit)
    (fun _ => (none : Option Unit)) root.name [] root
  obtain ⟨fault, hleast, hh, he, -⟩ := h.isLeast_halts
  exact ⟨w, e, fault, h, (answers_superChain h s hs).1, he, hleast, hh⟩

theorem Serves.looksUp_walk (hs : s.Serves c x limit) {w : Walk Unit} {e : Effort}
    (h : Ascends c x.scope (levelBound limit) (fun _ => none) root.name [] root w e)
    {fault : Option Diagnostic} (he : e.faults = fault.toList) (own : String → Option β) :
    s.LooksUp (w.levels.map Level.name) fault (fun n => (own n).isSome)
      (s.walk root fun l => own l.name).2 := by
  obtain ⟨w', e', h', ha⟩ := h.answered fun l => own l.name
  obtain ⟨-, -, hafter⟩ := answers_walk h' s hs
  have hidx : (w.levels.map Level.name).findIdx? (fun n => (own n).isSome) =
      w.levels.findIdx? fun l => (own l.name).isSome := List.findIdx?_map ..
  have hfound : w'.found.isSome = (w.levels.findIdx? fun l => (own l.name).isSome).isSome := by
    rw [ha.found, List.isSome_findSome?, List.findIdx?_isSome]
  constructor
  · intro k hk
    rw [hidx] at hk
    have hf : w'.found.isSome = true := by
      rw [hfound, hk, Option.isSome_some]
    obtain ⟨hasked, hfaults, hk'⟩ := h'.of_found hf
    obtain ⟨above, hlevels⟩ := ha.levels
    have hhops : e'.hops = k := by
      rw [← hlevels, List.findIdx?_append, hk'] at hk
      exact Option.some.inj hk
    refine ⟨?_, ?_, ?_, ?_⟩
    · rw [hafter.superHops, hhops]
    · rw [hafter.lookups, hasked, hhops]
    · rw [hafter.diagnostics, hfaults]
      rfl
    · exact hs.warnings_climb h' (hs.limit ▸ ChainGuard.holds_ofLimit _)
        (hs.limit ▸ ChainGuard.maxDepth_ofLimit limit) hf
  · intro hnone
    rw [hidx] at hnone
    have hf : w'.found = none := by
      rw [← Option.isNone_iff_eq_none, ← Option.not_isSome, hfound, hnone]
      rfl
    have hcount := h'.hops_add_one
    obtain ⟨above, -, hcons, -⟩ := h.exists_cons (levelBound_pos limit)
    have hpos : 0 < w.levels.length := by
      rw [hcons]
      exact Nat.succ_pos _
    have hfaults : e'.faults = fault.toList := by
      rw [ha.faults, hf, he]
      rfl
    have hlength : fault.toList.length = if fault.isSome then 1 else 0 := by cases fault <;> rfl
    rw [ha.ended hf, hfaults, hlength] at hcount
    rw [hafter.superHops, List.length_map]
    omega

end

/-- What a look-up costs depends on the position of the class that decides it, and on nothing above
that class. -/
theorem lookups_are_lazy (ix : Index) (x : Context) (limit : Option UInt32)
    (ops : List Operation) (root : Root) (name : String) :
    let s := (start ix.catalog x limit).performAll ops
    let chain := (s.superChain root).1
    let declaresField (c : String) := (ix.fields c x.scope).any (·.name == name)
    let declaresMethod (c : String) :=
      (ix.methods c x.scope).any (·.name == name) || (ix.statics c x.scope).any (·.name == name)
    ∃ fault,
      IsLeast {i | ∃ d, ix.catalog.Halts x.scope (levelBound limit) root i d} chain.length ∧
      ix.catalog.Halts x.scope (levelBound limit) root chain.length fault ∧
      s.LooksUp chain fault declaresField (s.findField root name).2 ∧
      s.LooksUp chain fault declaresField (s.fieldTypes root name).2 ∧
      s.LooksUp chain fault declaresMethod (s.findMethod root name).2 := by
  intro s chain declaresField declaresMethod
  have hs : s.Serves ix.catalog x limit := (serves_start _ _ _).performAll ops
  obtain ⟨w, e, fault, h, (hchain : chain = _), he, hleast, hh⟩ := hs.exists_halts root
  have hlength : chain.length = w.levels.length := by rw [hchain, List.length_map]
  have hfield : ∀ c, (ix.field? c name x.scope).isSome = declaresField c := fun c => by
    rw [Index.field?_eq_find?, List.isSome_find?]
  have htypes : ∀ c, ((ix.field? c name x.scope).map FieldDef.types).isSome = declaresField c :=
    fun c => by rw [Option.isSome_map, hfield]
  have hmethod : ∀ c, ((ix.method? c name x.scope).or (ix.static? c name x.scope)).isSome =
      declaresMethod c := fun c => by
    rw [Index.method?_eq_find?, Index.static?_eq_find?, Option.isSome_or, List.isSome_find?,
      List.isSome_find?]
  -- Every look-up is a walk that asks each class by its name.
  have hwalk {β : Type} {own : String → Option β} {declares : String → Bool}
      (hown : ∀ c, (own c).isSome = declares c) :
      s.LooksUp chain fault declares (s.walk root fun l => own l.name).2 := by
    rw [hchain, ← funext hown]
    exact hs.looksUp_walk h he own
  refine ⟨fault, hlength ▸ hleast, hlength ▸ hh, ?_, ?_, ?_⟩
  · simp only [findField, hs.catalog, hs.scope]
    exact (hwalk hfield).emit rfl
  · simp only [fieldTypes, hs.catalog, hs.scope]
    exact hwalk htypes
  · simp only [findMethod, hs.catalog, hs.scope]
    exact (hwalk hmethod).emit rfl

/-- In a loop the field of the second class is found by one hop, whatever is above it; a field that
nobody declares takes the hop back to the first class too. -/
example :
    let s := start Index.loop.catalog ⟨0, .project⟩
    let root := Root.node (.declared "A" (some "B"))
    (s.findField root "x").2.stats = ⟨1, 1, 0⟩ ∧ (s.findField root "x").2.diagnostics = [] ∧
      (s.findField root "y").2.stats = ⟨2, 2, 0⟩ := by
  decide +kernel

end Session

end Lineage
