import Lineage.Completion
import Lineage.Proofs.Session.Ascent
import Lineage.Proofs.Session.Calls

/-!
# Counters that fit into words

A walk takes one turn after the other: the guard lets it onto a level, the visitor lets it go on,
and the parent of the level is looked up. Each turn adds one to the depth of the guard, to the hops
and to the calls for classes, so after `n` turns all three stand at `n` (`Turns.tally`), and the
guard has had room for each of them. No catalog is asked to be sensible for that: it may have a
class of every name, or hand out a class under a name that is not its own.
-/

namespace Lineage

/-- The calls for classes, whoever answered them. -/
def Stats.calls (t : Stats) : Nat := t.classLookups + t.memoHits

/-- No counter has gone past the greatest number that a word holds. -/
structure Stats.Fits (t : Stats) : Prop where
  hops : t.superHops ≤ UInt32.size - 1
  calls : t.classLookups + t.memoHits ≤ UInt32.size - 1

namespace Session

section
variable (s : Session)

theorem calls_resolveClass (name : String) :
    (s.resolveClass name).2.stats.calls = s.stats.calls + 1 := by
  rw [resolveClass_eq]
  unfold Stats.calls
  split
  · exact (Nat.add_assoc _ _ 1).symm
  · exact Nat.add_right_comm _ 1 _

/-- A request for a parent costs a call if the type names one, as it does when it has one. -/
theorem stats_parentOf {r : Root} {parent : Option TypeNode} {t : Session}
    (h : s.parentOf r = (parent, t)) :
    t.stats.superHops = s.stats.superHops ∧ t.stats.calls ≤ s.stats.calls + 1 ∧
      (parent.isSome → t.stats.calls = s.stats.calls + 1) := by
  cases r with
  | detached name =>
    cases h
    exact ⟨rfl, Nat.le_add_right _ 1, nofun⟩
  | node n =>
    simp only [parentOf, superType] at h
    cases hname : n.superName with
    | none =>
      simp only [hname] at h
      cases h
      exact ⟨rfl, Nat.le_add_right _ 1, nofun⟩
    | some name =>
      simp only [hname] at h
      have hhops := superHops_resolveClass s name
      have hcalls := s.calls_resolveClass name
      rcases hr : s.resolveClass name with ⟨_ | node, u⟩ <;> simp only [hr] at h hhops hcalls <;>
        cases h
      · exact ⟨hhops, Nat.le_of_eq hcalls, nofun⟩
      · exact ⟨hhops, Nat.le_of_eq hcalls, fun _ => hcalls⟩

end

end Session

/-! ## Turns -/

/-- A walk that is about to step onto `next`. -/
structure Stance where
  session : Session
  guard : ChainGuard
  next : Root

namespace Stance

/-- The walk from `root` before its first turn. -/
def atRoot (s : Session) (root : Root) : Stance := ⟨s, .ofLimit s.limit, root⟩

/-- What the walk still does. -/
def climb {β : Type} (a : Stance) (visit : Level → Option β) (root : String) : Walk β × Session :=
  Session.climb visit root a.session a.guard a.next

theorem climb_atRoot {β : Type} (s : Session) (root : Root) (visit : Level → Option β) :
    (atRoot s root).climb visit root.name = s.walk root visit := rfl

section
variable {β : Type} (visit : Level → Option β)

/-- A turn of a walk, from the level `a` is about to step onto to the parent of that level. -/
inductive Turn : Stance → Stance → Prop where
  | up {s t : Session} {g g' : ChainGuard} {next : Root} {parent : TypeNode} :
      g.enter next.name = (.entered, g') → visit ⟨next.name, g'.depth - 1⟩ = none →
      s.parentOf next = (some parent, t) → Turn ⟨s, g, next⟩ ⟨t.countHop, g', .node parent⟩

/-- `n` turns. -/
inductive Turns : Nat → Stance → Stance → Prop where
  | refl (a : Stance) : Turns 0 a a
  | snoc {n : Nat} {a b c : Stance} : Turns n a b → Turn visit b c → Turns (n + 1) a c

variable {visit} {a b c : Stance} {n : Nat}

theorem Turns.cons (h : Turn visit a b) (hs : Turns visit n b c) : Turns visit (n + 1) a c := by
  induction hs with
  | refl b => exact .snoc (.refl a) h
  | snoc _ hlast ih => exact .snoc (ih h) hlast

theorem Turn.room_lt (h : Turn visit a b) : b.guard.room < a.guard.room := by
  cases h with
  | up henter _ _ => exact ChainGuard.room_lt_of_entered henter

/-- Every walk comes to a level from which it does not turn to another. -/
theorem exists_last (visit : Level → Option β) (a : Stance) :
    ∃ n last, Turns visit n a last ∧ ∀ b, ¬ Turn visit last b := by
  induction hroom : a.guard.room using Nat.strongRecOn generalizing a with
  | _ room ih =>
    subst hroom
    by_cases h : ∃ b, Turn visit a b
    · obtain ⟨b, hb⟩ := h
      obtain ⟨n, last, hturns, hlast⟩ := ih _ hb.room_lt b rfl
      exact ⟨n + 1, last, .cons hb hturns, hlast⟩
    · exact ⟨0, a, .refl a, fun b hb => h ⟨b, hb⟩⟩

/-- Everything that is counted stands at `n`, which is within the bound of the guard. -/
structure Tally (bound n : Nat) (a : Stance) : Prop where
  maxDepth : a.guard.maxDepth = bound
  depth : a.guard.depth = n
  hops : a.session.stats.superHops = n
  calls : a.session.stats.calls = n
  le : n ≤ bound

theorem tally_atRoot (c : Catalog) (x : Context) (limit : Option UInt32) (root : Root) :
    Tally (levelBound limit) 0 (atRoot (.start c x limit) root) where
  maxDepth := ChainGuard.maxDepth_ofLimit limit
  depth := (ChainGuard.holds_ofLimit _).depth
  hops := rfl
  calls := rfl
  le := Nat.zero_le _

variable {bound : Nat}

theorem Turn.tally (h : Turn visit a b) (ha : Tally bound n a) : Tally bound (n + 1) b := by
  cases h with
  | @up s t g g' next parent henter hv hp =>
    obtain ⟨hmax, hdepth, hhops, hcalls, hle⟩ := ha
    obtain ⟨hroom, hmax'⟩ := ChainGuard.room_of_entered henter
    have hdepth' := ChainGuard.depth_of_entered henter
    obtain ⟨hhops', -, hcalls'⟩ := s.stats_parentOf hp
    simp only at hmax hdepth hhops hcalls
    refine ⟨hmax'.trans hmax, by rw [hdepth', hdepth], ?_, ?_, by omega⟩
    · show t.stats.superHops + 1 = n + 1
      rw [hhops', hhops]
    · show t.stats.calls = n + 1
      rw [hcalls' rfl, hcalls]

theorem Turns.tally (h : Turns visit n a b) (ha : Tally bound 0 a) : Tally bound n b := by
  induction h with
  | refl a => exact ha
  | snoc _ hlast ih => exact hlast.tally (ih ha)

variable (root : String)

/-- The turn shows one level, the first that is left. -/
theorem Turn.climb_eq (h : Turn visit a b) (ha : Tally bound n a) :
    a.climb visit root =
      (⟨⟨a.next.name, n⟩ :: (b.climb visit root).1.levels, (b.climb visit root).1.found⟩,
        (b.climb visit root).2) := by
  cases h with
  | @up s t g g' next parent henter hv hp =>
    have hdepth : g'.depth = n + 1 := by rw [ChainGuard.depth_of_entered henter, ha.depth]
    rw [hdepth, Nat.add_sub_cancel] at hv
    exact Session.climb_of_up henter hdepth hv hp

/-- After `n` turns `n` levels have been shown, and the rest of the walk is as before. -/
theorem Turns.climb_eq (h : Turns visit n a b) (ha : Tally bound 0 a) :
    ∃ shown, shown.length = n ∧
      (a.climb visit root).1.levels = shown ++ (b.climb visit root).1.levels ∧
      (a.climb visit root).2 = (b.climb visit root).2 := by
  induction h with
  | refl a => exact ⟨[], rfl, rfl, rfl⟩
  | @snoc n a b c hturns hlast ih =>
    obtain ⟨shown, hlength, hlevels, hsession⟩ := ih ha
    rw [hlast.climb_eq root (hturns.tally ha)] at hlevels hsession
    refine ⟨shown ++ [⟨b.next.name, n⟩], by simp [hlength], ?_, hsession⟩
    rw [hlevels, List.append_assoc]
    rfl

/-- A level that the guard lets the walk onto is shown next, whatever comes then. -/
theorem Tally.levels_of_entered (visit : Level → Option β) (ha : Tally bound n a)
    {g : ChainGuard} (h : a.guard.enter a.next.name = (.entered, g)) :
    ∃ above, (a.climb visit root).1.levels = ⟨a.next.name, n⟩ :: above := by
  have hdepth : g.depth = n + 1 := by rw [ChainGuard.depth_of_entered h, ha.depth]
  unfold climb
  cases hv : visit ⟨a.next.name, n⟩ with
  | some answer =>
    rw [Session.climb_of_found h hdepth hv]
    exact ⟨[], rfl⟩
  | none =>
    rcases hp : a.session.parentOf a.next with ⟨_ | parent, t⟩
    · rw [Session.climb_of_top h hdepth hv hp]
      exact ⟨[], rfl⟩
    · rw [Session.climb_of_up h hdepth hv hp]
      exact ⟨_, rfl⟩

/-- From the last level no hop is counted, and at most one call, for a parent that is missing. -/
theorem Tally.stats_climb (ha : Tally bound n a) (hlast : ∀ b, ¬ Turn visit a b) :
    (a.climb visit root).2.stats.superHops = n ∧ (a.climb visit root).2.stats.calls ≤ bound := by
  have hcalls : a.session.stats.calls ≤ bound := ha.calls ▸ ha.le
  unfold climb
  rcases h : a.guard.enter a.next.name with ⟨_ | _ | _, g⟩
  · have hdepth : g.depth = n + 1 := by rw [ChainGuard.depth_of_entered h, ha.depth]
    cases hv : visit ⟨a.next.name, n⟩ with
    | some answer =>
      rw [Session.climb_of_found h hdepth hv]
      exact ⟨ha.hops, hcalls⟩
    | none =>
      rcases hp : a.session.parentOf a.next with ⟨_ | parent, t⟩
      · rw [Session.climb_of_top h hdepth hv hp]
        obtain ⟨hhops, hmore, -⟩ := a.session.stats_parentOf hp
        have hroom : n < bound := by
          rw [← ha.depth, ← ha.maxDepth]
          exact (ChainGuard.room_of_entered h).1
        rw [ha.calls] at hmore
        exact ⟨hhops.trans ha.hops, Nat.le_trans hmore hroom⟩
      · exact absurd (.up h (by rw [hdepth]; exact hv) hp) (hlast _)
  · rw [Session.climb_of_cycle h]
    have hafter := Session.after_emit_report a.session (.cyclicChain root a.next.name)
      (.cyclic root a.next.name)
    exact ⟨hafter.superHops.trans ha.hops, Nat.le_trans (Nat.le_of_eq hafter.lookups) hcalls⟩
  · rw [Session.climb_of_tooDeep h]
    have hafter := Session.after_emit_report a.session
      (.chainTooDeep root a.next.name a.guard.maxDepth) (.tooDeep root a.guard.maxDepth)
    exact ⟨hafter.superHops.trans ha.hops, Nat.le_trans (Nat.le_of_eq hafter.lookups) hcalls⟩

end

end Stance

/-! ## Walks in a fresh session -/

namespace Session

section
variable (c : Catalog) (x : Context) (limit : Option UInt32)

/-- The hops of a walk are its turns. -/
theorem stats_walk {β : Type} (root : Root) (visit : Level → Option β) {n : Nat} {last : Stance}
    (h : Stance.Turns visit n (.atRoot (start c x limit) root) last)
    (hlast : ∀ b, ¬ Stance.Turn visit last b) :
    ((start c x limit).walk root visit).2.stats.superHops = n ∧
      ((start c x limit).walk root visit).2.stats.calls ≤ levelBound limit := by
  have hstart := Stance.tally_atRoot c x limit root
  obtain ⟨-, -, -, hsession⟩ := h.climb_eq root.name hstart
  rw [← Stance.climb_atRoot, hsession]
  exact (h.tally hstart).stats_climb root.name hlast

theorem fits_walk {β : Type} (root : Root) (visit : Level → Option β) :
    ((start c x limit).walk root visit).2.stats.Fits := by
  obtain ⟨n, last, hturns, hlast⟩ := Stance.exists_last visit (.atRoot (start c x limit) root)
  obtain ⟨hhops, hcalls⟩ := stats_walk c x limit root visit hturns hlast
  have hle := (hturns.tally (Stance.tally_atRoot c x limit root)).le
  have hbound := levelBound_le limit
  exact ⟨by omega, Nat.le_trans hcalls hbound⟩

theorem fits_perform (op : Operation) : ((start c x limit).perform op).2.stats.Fits := by
  -- Only the log is written after a walk.
  cases op with
  | resolveClass name =>
    have hhops := superHops_resolveClass (start c x limit) name
    have hcalls := (start c x limit).calls_resolveClass name
    have hone : 1 ≤ UInt32.size - 1 := by decide
    exact ⟨Nat.le_trans (Nat.le_of_eq hhops) (Nat.zero_le _),
      Nat.le_trans (Nat.le_of_eq hcalls) hone⟩
  | takeDiagnostics => exact ⟨Nat.zero_le _, Nat.zero_le _⟩
  | superType root =>
    obtain ⟨hhops, hcalls, -⟩ := (start c x limit).stats_parentOf (Prod.eta _).symm
    have hone : 1 ≤ UInt32.size - 1 := by decide
    exact ⟨Nat.le_trans (Nat.le_of_eq hhops) (Nat.zero_le _), Nat.le_trans hcalls hone⟩
  | superChain root => exact fits_walk c x limit root _
  | walk root visit => exact fits_walk c x limit root visit
  | findField root name => exact fits_walk c x limit root _
  | findMethod root name => exact fits_walk c x limit root _
  | fieldTypes root name => exact fits_walk c x limit root _
  | collect root matcher asField => exact fits_walk c x limit root _
  | collectFields root matcher => exact fits_walk c x limit root _
  | collectStatics root matcher => exact fits_walk c x limit root _
  | collectMethods root matcher asField => exact fits_walk c x limit root _

/-- Whatever the catalog says, no counter of a request goes past what a word holds. A walk ends
after `n` turns, and before each turn the depth of its guard, its hops and its calls are as many as
the turns so far. Where the guard lets it onto a level, one less than the depth is the position of
the level. -/
theorem counters_fit (root : Root) :
    (∀ (β : Type) (visit : Level → Option β),
      let walked := (start c x limit).walk root visit
      let first := Stance.atRoot (start c x limit) root
      (∃ n last, Stance.Turns visit n first last ∧ (∀ b, ¬ Stance.Turn visit last b) ∧
        walked.2.stats.superHops = n) ∧
      ∀ n a, Stance.Turns visit n first a →
        a.guard.depth = n ∧ a.session.stats.superHops = n ∧ a.session.stats.calls = n ∧
        n ≤ a.guard.maxDepth ∧ a.guard.maxDepth ≤ UInt32.size - 1 ∧
        ∀ g, a.guard.enter a.next.name = (.entered, g) →
          1 ≤ g.depth ∧ g.depth ≤ g.maxDepth ∧ g.maxDepth ≤ UInt32.size - 1 ∧
          walked.1.levels[n]? = some ⟨a.next.name, g.depth - 1⟩ ∧ g.depth - 1 = n) ∧
    (∀ op, ((start c x limit).perform op).2.stats.Fits) ∧
    ∀ (r : CompletionRequest) done, r.complete? c root = some done → done.1.stats.Fits := by
  refine ⟨fun β visit => ⟨?_, fun n a hturns => ?_⟩, fits_perform c x limit, fun r done hdone => ?_⟩
  · obtain ⟨n, last, hturns, hlast⟩ := Stance.exists_last visit (.atRoot (start c x limit) root)
    exact ⟨n, last, hturns, hlast, (stats_walk c x limit root visit hturns hlast).1⟩
  · have hstart := Stance.tally_atRoot c x limit root
    have ha := hturns.tally hstart
    have hbound : a.guard.maxDepth ≤ UInt32.size - 1 := ha.maxDepth ▸ levelBound_le limit
    refine ⟨ha.depth, ha.hops, ha.calls, ha.maxDepth ▸ ha.le, hbound, fun g hg => ?_⟩
    obtain ⟨hroom, hmax⟩ := ChainGuard.room_of_entered hg
    have hdepth : g.depth = n + 1 := by rw [ChainGuard.depth_of_entered hg, ha.depth]
    refine ⟨by omega, by rw [hdepth, hmax, ← ha.depth]; exact hroom, hmax ▸ hbound, ?_, by omega⟩
    obtain ⟨shown, hlength, hlevels, -⟩ := hturns.climb_eq root.name hstart
    obtain ⟨above, habove⟩ := ha.levels_of_entered root.name visit hg
    rw [Stance.climb_atRoot, habove] at hlevels
    rw [hlevels, List.getElem?_append_right (Nat.le_of_eq hlength), hlength, Nat.sub_self, hdepth]
    rfl
  · obtain ⟨context, -, rfl⟩ := Option.map_eq_some_iff.mp hdone
    exact fits_walk c context r.limit root _

end

/-! ## A catalog without an end -/

/-- Every name has a class, and the class a parent with a longer name. -/
def endless : Catalog :=
  .ofLists (fun name _ => some { name := name, superName := some (name.push 'x') })
    (fun _ _ => []) (fun _ _ => []) (fun _ _ => [])

/-- The name of the class at `i` of the chain of the empty name. -/
def endlessName : Nat → String
  | 0 => ""
  | i + 1 => (endlessName i).push 'x'

def endlessNode (i : Nat) : TypeNode := .declared (endlessName i) (some (endlessName (i + 1)))

theorem length_endlessName (i : Nat) : (endlessName i).length = i := by
  induction i with
  | zero => rfl
  | succ i ih => rw [endlessName, String.length_push, ih]

theorem parent?_endlessNode (x : Scope) (i : Nat) :
    endless.parent? x (.node (endlessNode i)) = some (endlessNode (i + 1)) := rfl

theorem endlessName_not_mem (i : Nat) : endlessName i ∉ (List.range i).map endlessName := by
  intro h
  obtain ⟨j, hj, heq⟩ := List.mem_map.mp h
  have hlt := List.mem_range.mp hj
  rw [← length_endlessName i, ← heq, length_endlessName] at hlt
  omega

/-- From the class at `i` a walk hops once for each level that it may still have. -/
theorem ascends_endless (x : Scope) {bound i : Nat} (root : String) (h : i ≤ bound) :
    ∃ w e, Ascends endless x bound (fun _ => (none : Option Unit)) root
      ((List.range i).map endlessName) (.node (endlessNode i)) w e ∧ e.hops = bound - i := by
  have hnew : (Root.node (endlessNode i)).name ∉ (List.range i).map endlessName :=
    endlessName_not_mem i
  have hlength : ((List.range i).map endlessName).length = i := by simp
  induction hroom : bound - i generalizing i with
  | zero => exact ⟨_, _, .tooDeep hnew (by omega), rfl⟩
  | succ room ih =>
    obtain ⟨w, e, hw, he⟩ := ih (i := i + 1) (by omega) (endlessName_not_mem _) (by simp) (by omega)
    rw [List.range_succ, List.map_append] at hw
    refine ⟨_, _, .up hnew (by omega) rfl (parent?_endlessNode x i) hw, ?_⟩
    show 0 + (1 + e.hops) = room + 1
    omega

/-- The hops come to the bound of the guard, without a limit to the greatest word: the hop onto the
level that is refused counts too. -/
theorem superHops_endless (x : Context) (limit : Option UInt32) :
    ((start endless x limit).superChain (.node (endlessNode 0))).2.stats.superHops =
      levelBound limit := by
  let root := Root.node (endlessNode 0)
  obtain ⟨w, e, h, he⟩ := ascends_endless x.scope root.name (Nat.zero_le (levelBound limit))
  have hw : Ascends endless x.scope (levelBound limit) (fun _ => none) root.name [] root w e := h
  obtain ⟨-, -, hafter⟩ := answers_superChain hw _ (serves_start endless x limit)
  rw [hafter.superHops, he]
  exact Nat.zero_add _

end Session

end Lineage
