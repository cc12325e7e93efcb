import Lineage.Proofs.Session.Ascent
import Lineage.Session.Operation

/-!
# Calls for classes

Every request makes its calls for classes one after the other, and what it calls for next depends
on what it has been given. `calls` lists them with their answers, each as it is made in the session
of that moment. The list leaves nothing out: but for its diagnostics, its hops and the rest of its
log, a session is after a request what the calls alone would have made of it (`Makes`).
-/

namespace Lineage

/-- A call for a class by its name: what it is given, and what the catalog was asked for it. -/
structure Call where
  name : String
  node : Option TypeNode
  asked : List (String × Scope)
  deriving DecidableEq

/-- The classes of a catalog that writes down each question it is asked. -/
def Catalog.recorded (c : Catalog) (name : String) (scope : Scope) :
    StateM (List (String × Scope)) (Option ClassRecord) :=
  modifyGet fun asked => (c.class? name scope, asked ++ [(name, scope)])

/-- The class that a look-up in the catalog was for. -/
def Event.lookedUp? : Event → Option String
  | classLookup name _ => some name
  | _ => none

namespace Session

/-! ## The calls of a request -/

/-- The call for a class, made of a catalog that writes down what it is asked. -/
def call (s : Session) (name : String) : Call :=
  let ((node, _), asked) := (s.resolveClassAsking s.catalog.recorded name).run []
  ⟨name, node, asked⟩

@[simp] theorem call_name (s : Session) (name : String) : (s.call name).name = name := rfl

/-- Writing down what the catalog is asked changes neither the answer nor the session. -/
theorem run_recorded (s : Session) (name : String) :
    (s.resolveClassAsking s.catalog.recorded name).run [] =
      (s.resolveClass name, if name ∈ s.memo then [] else [(name, s.scope)]) := by
  have hmem : name ∈ s.memo ↔ s.memo[name]?.isSome := Std.TreeMap.isSome_getElem?_iff_mem.symm
  rw [resolveClass_eq]
  unfold resolveClassAsking
  cases hm : s.memo[name]? with
  | some known =>
    rw [if_pos (hmem.mpr (by rw [hm]; rfl))]
    rfl
  | none =>
    rw [if_neg (mt hmem.mp (by rw [hm]; nofun))]
    rfl

theorem call_eq (s : Session) (name : String) :
    s.call name =
      ⟨name, (s.resolveClass name).1, if name ∈ s.memo then [] else [(name, s.scope)]⟩ := by
  unfold call
  rw [run_recorded]

def callsForParent (s : Session) : Root → List Call
  | .node n => n.superName.toList.map s.call
  | .detached _ => []

/-- The calls of `climb`. -/
def callsOfClimb {β : Type} (visit : Level → Option β) (s : Session) (guard : ChainGuard)
    (next : Root) : List Call :=
  match _h : guard.enter next.name with
  | (.cycle, _) => []
  | (.depthExceeded, _) => []
  | (.entered, guard') =>
    match visit ⟨next.name, guard'.depth - 1⟩ with
    | some _ => []
    | none =>
      match s.parentOf next with
      | (none, _) => s.callsForParent next
      | (some parent, t) =>
        s.callsForParent next ++ callsOfClimb visit t.countHop guard' (.node parent)
  termination_by guard.room
  decreasing_by exact ChainGuard.room_lt_of_entered (by assumption)

def callsOfWalk {β : Type} (s : Session) (root : Root) (visit : Level → Option β) : List Call :=
  callsOfClimb visit s (.ofLimit s.limit) root

def calls (s : Session) : Operation → List Call
  | .resolveClass name => [s.call name]
  | .takeDiagnostics => []
  | .superType root => s.callsForParent root
  | .walk root visit => s.callsOfWalk root visit
  | .findField root name =>
    s.callsOfWalk root fun level => s.catalog.field? level.name name s.scope
  | .findMethod root name =>
    s.callsOfWalk root fun level =>
      (s.catalog.method? level.name name s.scope).or (s.catalog.static? level.name name s.scope)
  | .fieldTypes root name =>
    s.callsOfWalk root fun level =>
      (s.catalog.field? level.name name s.scope).map FieldDef.types
  | .superChain root
  | .collect root _ _
  | .collectFields root _
  | .collectStatics root _
  | .collectMethods root _ _ => s.callsOfWalk root fun _ => (none : Option Unit)

/-- The calls of a list of operations. -/
def callsAll (s : Session) : List Operation → List Call
  | [] => []
  | op :: ops => s.calls op ++ (s.perform op).2.callsAll ops

/-! ## Making calls -/

/-- The calls for `names`, one after the other, and the session afterwards. -/
def callAll (s : Session) : List String → List Call × Session
  | [] => ([], s)
  | name :: names =>
    let (made, t) := (s.resolveClass name).2.callAll names
    (s.call name :: made, t)

theorem callAll_append (s : Session) (names more : List String) :
    s.callAll (names ++ more) =
      ((s.callAll names).1 ++ ((s.callAll names).2.callAll more).1,
        ((s.callAll names).2.callAll more).2) := by
  induction names generalizing s with
  | nil => rfl
  | cons name names ih => simp only [List.cons_append, callAll, ih]

/-- The session as far as calls for classes go. -/
def bare (s : Session) : Session :=
  { s with
    diagnostics := []
    stats.superHops := 0
    log := s.log.filter fun e => e.lookedUp?.isSome }

theorem call_bare (s : Session) (name : String) : s.bare.call name = s.call name := by
  have hmemo : s.bare.memo = s.memo := rfl
  rw [call_eq, call_eq, resolveClass_eq, resolveClass_eq, hmemo]
  cases s.memo[name]? <;> rfl

theorem resolveClass_bare (s : Session) (name : String) :
    (s.bare.resolveClass name).2 = (s.resolveClass name).2.bare := by
  have hmemo : s.bare.memo[name]? = s.memo[name]? := rfl
  rw [resolveClass_eq, resolveClass_eq, hmemo]
  cases s.memo[name]? with
  | some known => rfl
  | none => simp [bare, scope, Event.lookedUp?]

theorem bare_emit (s : Session) {e : Event} (he : e.lookedUp? = none) :
    (s.emit e).bare = s.bare := by
  simp [bare, emit, he]

theorem bare_report (s : Session) (d : Diagnostic) : (s.report d).bare = s.bare := by
  unfold report
  split <;> rfl

theorem superHops_resolveClass (s : Session) (name : String) :
    (s.resolveClass name).2.stats.superHops = s.stats.superHops := by
  rw [resolveClass_eq]
  split <;> rfl

theorem superHops_report (s : Session) (d : Diagnostic) :
    (s.report d).stats.superHops = s.stats.superHops := by
  unfold report
  split <;> rfl

/-- The session `t` is what the calls, made in turn, make of `s`, and each hop is due to a call
that was given a class. -/
structure Makes (s : Session) (made : List Call) (t : Session) : Prop where
  replay : s.bare.callAll (made.map Call.name) = (made, t.bare)
  hops : t.stats.superHops ≤ s.stats.superHops + made.countP (·.node.isSome)

section
variable {s t u : Session} {made more : List Call}

theorem Makes.refl (s : Session) : s.Makes [] s :=
  ⟨rfl, Nat.le_add_right _ _⟩

theorem Makes.trans (h : s.Makes made t) (h' : t.Makes more u) : s.Makes (made ++ more) u where
  replay := by rw [List.map_append, callAll_append, h.replay, h'.replay]
  hops := by
    have hh := h.hops
    have hh' := h'.hops
    rw [List.countP_append]
    omega

theorem Makes.emit (h : s.Makes made t) {e : Event} (he : e.lookedUp? = none) :
    s.Makes made (t.emit e) :=
  ⟨by rw [bare_emit t he, h.replay], h.hops⟩

theorem Makes.report (h : s.Makes made t) (d : Diagnostic) : s.Makes made (t.report d) :=
  ⟨by rw [bare_report, h.replay], by rw [superHops_report]; exact h.hops⟩

theorem makes_resolveClass (s : Session) (name : String) :
    s.Makes [s.call name] (s.resolveClass name).2 where
  replay := by
    show (_, _) = _
    simp only [call_name, call_bare, resolveClass_bare]
  hops := by
    rw [superHops_resolveClass]
    exact Nat.le_add_right _ _

theorem makes_superType (s : Session) (n : TypeNode) :
    s.Makes (s.callsForParent (.node n)) (s.superType n).2 := by
  simp only [superType, callsForParent]
  cases n.superName with
  | none => exact .refl s
  | some name =>
    have h := makes_resolveClass s name
    rcases hr : s.resolveClass name with ⟨_ | parent, t⟩ <;> simp only [hr] at h ⊢
    · exact h.emit rfl
    · exact h

theorem makes_parentOf (s : Session) (r : Root) :
    s.Makes (s.callsForParent r) (s.parentOf r).2 := by
  cases r with
  | node n => exact makes_superType s n
  | detached name => exact .refl s

/-- A hop onto a parent is the one hop of the call that was given the parent. -/
theorem makes_hop {r : Root} {parent : TypeNode} (h : s.parentOf r = (some parent, t)) :
    s.Makes (s.callsForParent r) t.countHop := by
  cases r with
  | detached name => cases h
  | node n =>
    simp only [parentOf, superType] at h
    simp only [callsForParent]
    cases hn : n.superName with
    | none => simp [hn] at h
    | some name =>
      simp only [hn] at h
      rcases hr : s.resolveClass name with ⟨_ | node, u⟩
      · simp [hr] at h
      · simp only [hr, Prod.mk.injEq, Option.some.injEq] at h
        obtain ⟨rfl, rfl⟩ := h
        have hcall : (s.call name).node.isSome := by simp [call_eq, hr]
        have hmake := makes_resolveClass s name
        have hhops := superHops_resolveClass s name
        rw [hr] at hmake hhops
        refine ⟨hmake.replay, ?_⟩
        simp only [Option.toList_some, List.map_singleton, List.countP_singleton, hcall, countHop]
        exact Nat.le_of_eq (congrArg (· + 1) hhops)

section
variable {β : Type} {visit : Level → Option β} {g g' : ChainGuard} {next : Root}

theorem callsOfClimb_of_cycle (h : g.enter next.name = (.cycle, g')) :
    callsOfClimb visit s g next = [] := by
  rw [callsOfClimb]
  split <;> simp_all

theorem callsOfClimb_of_tooDeep (h : g.enter next.name = (.depthExceeded, g')) :
    callsOfClimb visit s g next = [] := by
  rw [callsOfClimb]
  split <;> simp_all

theorem callsOfClimb_of_found {answer : β} (h : g.enter next.name = (.entered, g'))
    (hv : visit ⟨next.name, g'.depth - 1⟩ = some answer) :
    callsOfClimb visit s g next = [] := by
  rw [callsOfClimb]
  split <;> simp_all

theorem callsOfClimb_of_top (h : g.enter next.name = (.entered, g'))
    (hv : visit ⟨next.name, g'.depth - 1⟩ = none) (hp : s.parentOf next = (none, t)) :
    callsOfClimb visit s g next = s.callsForParent next := by
  rw [callsOfClimb]
  split <;> simp_all

theorem callsOfClimb_of_up {parent : TypeNode} (h : g.enter next.name = (.entered, g'))
    (hv : visit ⟨next.name, g'.depth - 1⟩ = none) (hp : s.parentOf next = (some parent, t)) :
    callsOfClimb visit s g next =
      s.callsForParent next ++ callsOfClimb visit t.countHop g' (.node parent) := by
  rw [callsOfClimb]
  split <;> simp_all

end

theorem makes_climb {β : Type} (visit : Level → Option β) (root : String) (s : Session)
    (g : ChainGuard) (next : Root) :
    s.Makes (callsOfClimb visit s g next) (climb visit root s g next).2 := by
  -- A level that is refused or that answers makes no call; any other calls for its parent.
  fun_induction climb visit root s g next with
  | case1 s g next g' hg =>
    rw [callsOfClimb_of_cycle hg]
    exact ((Makes.refl s).emit rfl).report _
  | case2 s g next g' hg =>
    rw [callsOfClimb_of_tooDeep hg]
    exact ((Makes.refl s).emit rfl).report _
  | case3 s g next g' hg level answer hv =>
    rw [callsOfClimb_of_found hg hv]
    exact .refl s
  | case4 s g next g' hg level hv t hp =>
    rw [callsOfClimb_of_top hg hv hp]
    have h := makes_parentOf s next
    rw [hp] at h
    exact h
  | case5 s g next g' hg level hv parent t hp rest u hw ih =>
    rw [callsOfClimb_of_up hg hv hp]
    rw [hw] at ih
    exact (makes_hop hp).trans ih

theorem makes_walk {β : Type} (s : Session) (root : Root) (visit : Level → Option β) :
    s.Makes (s.callsOfWalk root visit) (s.walk root visit).2 :=
  makes_climb visit root.name s (.ofLimit s.limit) root

theorem makes_perform (s : Session) (op : Operation) :
    s.Makes (s.calls op) (s.perform op).2 := by
  cases op with
  | resolveClass name => exact makes_resolveClass s name
  | takeDiagnostics => exact ⟨(Makes.refl s).replay, (Makes.refl s).hops⟩
  | superType root => exact makes_parentOf s root
  | superChain root => exact makes_walk s root _
  | walk root visit => exact makes_walk s root visit
  | findField root name => exact (makes_walk s root _).emit rfl
  | findMethod root name => exact (makes_walk s root _).emit rfl
  | fieldTypes root name => exact makes_walk s root _
  | collect root matcher asField => exact (makes_walk s root _).emit rfl
  | collectFields root matcher => exact makes_walk s root _
  | collectStatics root matcher => exact makes_walk s root _
  | collectMethods root matcher asField => exact makes_walk s root _

theorem makes_performAll (s : Session) (ops : List Operation) :
    s.Makes (s.callsAll ops) (s.performAll ops) := by
  induction ops generalizing s with
  | nil => exact .refl s
  | cons op ops ih => exact (makes_perform s op).trans (ih _)

end

end Session

end Lineage
