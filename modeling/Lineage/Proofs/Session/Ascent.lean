import Lineage.Proofs.ChainGuard
import Lineage.Proofs.Session.Effort

/-!
# Ascents

A walk without the session it runs in: `Ascends c x bound visit root seen next w e` says that a
walk from `root` which has been to `seen` and tries to step onto `next` goes on as `w` and costs
the effort `e`. Each constructor is one way in which a step ends. There is an ascent from
everywhere, and every session walks along it.
-/

namespace Lineage

/-- The levels that `next` and those above it add to the walk from `root`. -/
inductive Ascends {β : Type} (c : Catalog) (x : Scope) (bound : Nat) (visit : Level → Option β)
    (root : String) : List String → Root → Walk β → Effort → Prop where
  | cycle {seen : List String} {next : Root} : next.name ∈ seen →
      Ascends c x bound visit root seen next ⟨[], none⟩ { faults := [.cyclic root next.name] }
  | tooDeep {seen : List String} {next : Root} : next.name ∉ seen → bound ≤ seen.length →
      Ascends c x bound visit root seen next ⟨[], none⟩ { faults := [.tooDeep root bound] }
  | found {seen : List String} {next : Root} {answer : β} : next.name ∉ seen →
      seen.length < bound → visit ⟨next.name, seen.length⟩ = some answer →
      Ascends c x bound visit root seen next ⟨[⟨next.name, seen.length⟩], some answer⟩ {}
  | top {seen : List String} {next : Root} : next.name ∉ seen → seen.length < bound →
      visit ⟨next.name, seen.length⟩ = none → c.parent? x next = none →
      Ascends c x bound visit root seen next ⟨[⟨next.name, seen.length⟩], none⟩
        { asked := next.superName.toList }
  | up {seen : List String} {next : Root} {parent : TypeNode} {w : Walk β} {e : Effort} :
      next.name ∉ seen → seen.length < bound → visit ⟨next.name, seen.length⟩ = none →
      c.parent? x next = some parent →
      Ascends c x bound visit root (seen ++ [next.name]) (.node parent) w e →
      Ascends c x bound visit root seen next ⟨⟨next.name, seen.length⟩ :: w.levels, w.found⟩
        ({ asked := next.superName.toList } ++ ({ hops := 1 } ++ e))

theorem exists_ascends {β : Type} (c : Catalog) (x : Scope) (bound : Nat)
    (visit : Level → Option β) (root : String) (seen : List String) (next : Root) :
    ∃ w e, Ascends c x bound visit root seen next w e := by
  -- Each step takes one name of the room that is left.
  induction hroom : bound - seen.length generalizing seen next with
  | zero =>
    by_cases hmem : next.name ∈ seen
    · exact ⟨_, _, .cycle hmem⟩
    · exact ⟨_, _, .tooDeep hmem (by omega)⟩
  | succ room ih =>
    by_cases hmem : next.name ∈ seen
    · exact ⟨_, _, .cycle hmem⟩
    · have hlt : seen.length < bound := by omega
      cases hv : visit ⟨next.name, seen.length⟩ with
      | some answer => exact ⟨_, _, .found hmem hlt hv⟩
      | none =>
        cases hp : c.parent? x next with
        | none => exact ⟨_, _, .top hmem hlt hv hp⟩
        | some parent =>
          obtain ⟨w, e, h⟩ := ih (seen ++ [next.name]) (.node parent) (by simp; omega)
          exact ⟨_, _, .up hmem hlt hv hp h⟩

section
variable {β : Type} {c : Catalog} {x : Scope} {bound : Nat}

/-- Which answers a visitor could have given makes no difference if it gives none. -/
theorem Ascends.unanswered {γ : Type} {root : String} {seen : List String} {next : Root}
    {w : Walk γ} {e : Effort}
    (h : Ascends c x bound (fun _ => (none : Option γ)) root seen next w e) :
    Ascends c x bound (fun _ => (none : Option β)) root seen next ⟨w.levels, none⟩ e := by
  induction h with
  | cycle hmem => exact .cycle hmem
  | tooDeep hmem hfull => exact .tooDeep hmem hfull
  | found _ _ hv => cases hv
  | top hmem hlt _ hp => exact .top hmem hlt rfl hp
  | up hmem hlt _ hp _ ih => exact .up hmem hlt rfl hp ih

/-- With no name behind it a walk enters its root. -/
theorem Ascends.exists_cons {root : String} {next : Root} {w : Walk β} {e : Effort}
    (h : Ascends c x bound (fun _ => none) root [] next w e) (hpos : 0 < bound) :
    ∃ above more, w.levels = ⟨next.name, 0⟩ :: above ∧
      e.asked = next.superName.toList ++ more := by
  cases h with
  | cycle hmem => cases hmem
  | tooDeep _ hfull => exact absurd hfull (Nat.not_le.mpr hpos)
  | found _ _ hv => cases hv
  | top _ _ _ _ => exact ⟨[], [], rfl, (List.append_nil _).symm⟩
  | up _ _ _ _ _ => exact ⟨_, _, rfl, rfl⟩

/-- What a visitor leaves of the ascent `w`, `e` that nobody answers. Its answer ends the ascent at
the first level that has one, before anything can be reported. -/
structure Answered {γ : Type} (visit : Level → Option β) (w : Walk γ) (e : Effort) (w' : Walk β)
    (e' : Effort) : Prop where
  found : w'.found = w.levels.findSome? visit
  levels : w'.levels <+: w.levels
  asked : e'.asked <+: e.asked
  faults : e'.faults = if w'.found.isSome then [] else e.faults
  ended : w'.found = none → w'.levels = w.levels

theorem Ascends.answered {γ : Type} {root : String} {seen : List String} {next : Root}
    {w : Walk γ} {e : Effort}
    (h : Ascends c x bound (fun _ => (none : Option γ)) root seen next w e)
    (visit : Level → Option β) :
    ∃ w' e', Ascends c x bound visit root seen next w' e' ∧ Answered visit w e w' e' := by
  induction h with
  | cycle hmem =>
    exact ⟨_, _, .cycle hmem, rfl, List.prefix_rfl, List.prefix_rfl, rfl, fun _ => rfl⟩
  | tooDeep hmem hfull =>
    exact ⟨_, _, .tooDeep hmem hfull, rfl, List.prefix_rfl, List.prefix_rfl, rfl, fun _ => rfl⟩
  | found _ _ hv => cases hv
  | @top seen next hmem hlt _ hp =>
    cases hv : visit ⟨next.name, seen.length⟩ with
    | some answer =>
      exact ⟨_, _, .found hmem hlt hv, by simp [hv], List.prefix_rfl, List.nil_prefix, rfl, nofun⟩
    | none =>
      exact ⟨_, _, .top hmem hlt hv hp, by simp [hv], List.prefix_rfl, List.prefix_rfl, rfl,
        fun _ => rfl⟩
  | @up seen next parent w e hmem hlt _ hp _ ih =>
    obtain ⟨w', e', h', ha⟩ := ih
    cases hv : visit ⟨next.name, seen.length⟩ with
    | some answer =>
      exact ⟨_, _, .found hmem hlt hv, by simp [hv], List.prefix_append [_] _, List.nil_prefix, rfl,
        nofun⟩
    | none =>
      refine ⟨_, _, .up hmem hlt hv hp h', ?_, (List.prefix_cons_inj _).mpr ha.levels, ?_, ?_, ?_⟩
      · simp [hv, ha.found]
      · exact (List.prefix_append_right_inj _).mpr ((List.prefix_append_right_inj _).mpr ha.asked)
      · exact ha.faults
      · exact fun hn => congrArg (_ :: ·) (ha.ended hn)

end

namespace Session

section
variable {β : Type} {visit : Level → Option β} {root : String} {g g' : ChainGuard} {next : Root}
  {depth : Nat} {s t : Session}

theorem climb_of_cycle (h : g.enter next.name = (.cycle, g')) :
    climb visit root s g next = (⟨[], none⟩, s.reportCycle root next.name) := by
  rw [climb]
  split <;> simp_all

theorem climb_of_tooDeep (h : g.enter next.name = (.depthExceeded, g')) :
    climb visit root s g next = (⟨[], none⟩, s.reportDepth root next.name g.maxDepth) := by
  rw [climb]
  split <;> simp_all

theorem climb_of_found {answer : β} (h : g.enter next.name = (.entered, g'))
    (hd : g'.depth = depth + 1) (hv : visit ⟨next.name, depth⟩ = some answer) :
    climb visit root s g next = (⟨[⟨next.name, depth⟩], some answer⟩, s) := by
  rw [climb]
  split <;> simp_all

theorem climb_of_top (h : g.enter next.name = (.entered, g')) (hd : g'.depth = depth + 1)
    (hv : visit ⟨next.name, depth⟩ = none) (hp : s.parentOf next = (none, t)) :
    climb visit root s g next = (⟨[⟨next.name, depth⟩], none⟩, t) := by
  rw [climb]
  split <;> simp_all

theorem climb_of_up {parent : TypeNode} (h : g.enter next.name = (.entered, g'))
    (hd : g'.depth = depth + 1) (hv : visit ⟨next.name, depth⟩ = none)
    (hp : s.parentOf next = (some parent, t)) :
    climb visit root s g next =
      let (rest, u) := climb visit root t.countHop g' (.node parent)
      (⟨⟨next.name, depth⟩ :: rest.levels, rest.found⟩, u) := by
  rw [climb]
  split <;> simp_all

end

/-! ## Walks along ascents -/

section
variable {β : Type} {c : Catalog} {x : Context} {limit : Option UInt32} {visit : Level → Option β}

theorem Serves.report {s : Session} (h : s.Serves c x limit) (d : Diagnostic) :
    (s.report d).Serves c x limit := by
  unfold Session.report
  split
  · exact h
  · exact ⟨h.catalog, h.context, h.limit, h.memo⟩

theorem after_emit_report (s : Session) (event : Event) (d : Diagnostic) :
    s.After { faults := [d] } ((s.emit event).report d) := by
  unfold Session.report
  split
  · next hd => exact ⟨rfl, rfl, by simp [Session.emit], (if_pos hd).symm⟩
  · next hd => exact ⟨rfl, rfl, by simp [Session.emit], (if_neg hd).symm⟩

theorem Serves.countHop {s : Session} (h : s.Serves c x limit) : s.countHop.Serves c x limit :=
  ⟨h.catalog, h.context, h.limit, h.memo⟩

theorem after_countHop (s : Session) : s.After { hops := 1 } s.countHop :=
  ⟨rfl, rfl, by simp [Session.countHop], rfl⟩

/-- Every session walks along the ascent, whatever it remembers. -/
theorem answers_climb {root : String} {bound : Nat} {seen : List String} {next : Root}
    {w : Walk β} {e : Effort} (h : Ascends c x.scope bound visit root seen next w e)
    {g : ChainGuard} (hg : g.Holds seen) (hb : g.maxDepth = bound) :
    Answers c x limit (fun s => climb visit root s g next) w e := by
  induction h generalizing g with
  | cycle hmem =>
    intro s hs
    simp only [climb_of_cycle (hg.enter_of_mem hmem)]
    exact ⟨trivial, (hs.emit _).report _, after_emit_report s _ _⟩
  | tooDeep hmem hfull =>
    intro s hs
    simp only [climb_of_tooDeep (hg.enter_of_full hmem (hb ▸ hfull)), hb]
    exact ⟨trivial, (hs.emit _).report _, after_emit_report s _ _⟩
  | @found seen next answer hmem hlt hv =>
    obtain ⟨g', hg, hg', -⟩ := hg.enter_of_room hmem (hb ▸ hlt)
    have hd : g'.depth = seen.length + 1 := by simp [hg'.depth]
    intro s hs
    simp only [climb_of_found hg hd hv]
    exact ⟨trivial, hs, .refl s⟩
  | @top seen next hmem hlt hv hp =>
    obtain ⟨g', hg, hg', -⟩ := hg.enter_of_room hmem (hb ▸ hlt)
    have hd : g'.depth = seen.length + 1 := by simp [hg'.depth]
    intro s hs
    obtain ⟨ha, ht, he⟩ := answers_parentOf next s hs
    rw [hp] at ha
    simp only [climb_of_top hg hd hv (Prod.ext ha rfl)]
    exact ⟨trivial, ht, he⟩
  | @up seen next parent w e hmem hlt hv hp _ ih =>
    obtain ⟨g', hg, hg', hb'⟩ := hg.enter_of_room hmem (hb ▸ hlt)
    have hd : g'.depth = seen.length + 1 := by simp [hg'.depth]
    intro s hs
    obtain ⟨ha, ht, he⟩ := answers_parentOf next s hs
    rw [hp] at ha
    obtain ⟨hw, hu, he'⟩ := ih hg' (hb'.trans hb) _ ht.countHop
    simp only [climb_of_up hg hd hv (Prod.ext ha rfl)]
    exact ⟨by rw [← hw], hu, he.trans ((after_countHop _).trans he')⟩

theorem answers_walk {root : Root} {w : Walk β} {e : Effort}
    (h : Ascends c x.scope (levelBound limit) visit root.name [] root w e) :
    Answers c x limit (·.walk root visit) w e := by
  intro s hs
  simp only [walk, hs.limit]
  exact answers_climb h (ChainGuard.holds_ofLimit _) (ChainGuard.maxDepth_ofLimit limit) s hs

theorem answers_superChain {root : Root} {w : Walk Unit} {e : Effort}
    (h : Ascends c x.scope (levelBound limit) (fun _ => none) root.name [] root w e) :
    Answers c x limit (·.superChain root) (w.levels.map Level.name) e :=
  (answers_walk h).map fun w => w.levels.map Level.name

end

end Session

end Lineage
