import Lineage.Proofs.Index
import Lineage.Proofs.Session.Ascent
import Lineage.Session.Operation

/-!
# Exchanging the catalog

A session asks its catalog with one scope only. If two catalogs agree in that scope, a session over
the one and the same session over the other stay in step: they answer each request alike and are
the same session afterwards but for the catalog. `Indifferent c c' x f` says this of a request `f`.
-/

namespace Lineage

namespace Session

/-- The session with another catalog. -/
def withCatalog (s : Session) (c : Catalog) : Session := { s with catalog := c }

@[simp] theorem catalog_withCatalog (s : Session) (c : Catalog) :
    (s.withCatalog c).catalog = c := rfl

@[simp] theorem scope_withCatalog (s : Session) (c : Catalog) :
    (s.withCatalog c).scope = s.scope := rfl

/-- A session over `c` whose scope is `x` would do the same over `c'`. -/
def Indifferent (c c' : Catalog) (x : Scope) {α : Type} (f : Session → α × Session) : Prop :=
  ∀ s : Session, s.catalog = c → s.scope = x →
    f (s.withCatalog c') = ((f s).1, (f s).2.withCatalog c') ∧
      (f s).2.catalog = c ∧ (f s).2.scope = x

section
variable {c c' : Catalog} {x : Scope} {α β : Type} {f : Session → α × Session}

theorem indifferent_pure (a : α) : Indifferent c c' x fun s => (a, s) :=
  fun _ hc hx => ⟨rfl, hc, hx⟩

theorem Indifferent.bind (hf : Indifferent c c' x f) {g : α → Session → β × Session}
    (hg : ∀ a, Indifferent c c' x (g a)) : Indifferent c c' x fun s => g (f s).1 (f s).2 := by
  intro s hc hx
  obtain ⟨he, hc', hx'⟩ := hf s hc hx
  simp only [he]
  exact hg _ _ hc' hx'

theorem Indifferent.map (hf : Indifferent c c' x f) (g : α → β) :
    Indifferent c c' x fun s => (g (f s).1, (f s).2) :=
  hf.bind fun a => indifferent_pure (g a)

theorem Indifferent.emit (hf : Indifferent c c' x f) (event : α → Event) :
    Indifferent c c' x fun s => ((f s).1, (f s).2.emit (event (f s).1)) := by
  intro s hc hx
  obtain ⟨he, hc', hx'⟩ := hf s hc hx
  simp only [he]
  exact ⟨rfl, hc', hx'⟩

theorem indifferent_report (a : α) (event : Event) (d : Diagnostic) :
    Indifferent c c' x fun s => (a, (s.emit event).report d) := by
  intro s hc hx
  by_cases hd : d ∈ s.diagnostics
  · have hs : ∀ t : Session, t.diagnostics = s.diagnostics →
        (t.emit event).report d = t.emit event := fun t ht => if_pos (ht ▸ hd)
    simp only [hs s rfl, hs (s.withCatalog c') rfl]
    exact ⟨rfl, hc, hx⟩
  · have hs : ∀ t : Session, t.diagnostics = s.diagnostics → (t.emit event).report d =
        { t.emit event with diagnostics := t.diagnostics ++ [d] } :=
      fun t ht => if_neg (ht ▸ hd)
    simp only [hs s rfl, hs (s.withCatalog c') rfl]
    exact ⟨rfl, hc, hx⟩

variable (h : c.Agrees x c')
include h

theorem indifferent_resolveClass (name : String) : Indifferent c c' x (·.resolveClass name) := by
  rintro s rfl rfl
  have hclass : c'.class? name s.scope = s.catalog.class? name s.scope := h.class? name
  have hmemo : (s.withCatalog c').memo[name]? = s.memo[name]? := rfl
  cases hm : s.memo[name]? with
  | some known =>
    rw [hm] at hmemo
    simp only [resolveClass_eq, hm, hmemo]
    exact ⟨rfl, trivial, rfl⟩
  | none =>
    rw [hm] at hmemo
    simp only [resolveClass_eq, hm, hmemo, scope_withCatalog, catalog_withCatalog, hclass]
    exact ⟨rfl, trivial, rfl⟩

theorem indifferent_superType (n : TypeNode) : Indifferent c c' x (·.superType n) := by
  simp only [superType]
  cases n.superName with
  | none => exact indifferent_pure none
  | some name =>
    intro s hc hx
    obtain ⟨he, hc', hx'⟩ := indifferent_resolveClass h name s hc hx
    rcases hr : s.resolveClass name with ⟨_ | parent, t⟩ <;>
      simp only [hr] at he hc' hx' ⊢ <;>
      simp only [he]
    · exact ⟨rfl, hc', hx'⟩
    · exact ⟨trivial, hc', hx'⟩

theorem indifferent_parentOf (r : Root) : Indifferent c c' x (·.parentOf r) := by
  cases r with
  | node n => exact indifferent_superType h n
  | detached name => exact indifferent_pure none

theorem indifferent_climb (visit : Level → Option β) (root : String) (g : ChainGuard)
    (next : Root) : Indifferent c c' x fun s => climb visit root s g next := by
  -- A walk that goes on does so with less room.
  induction hroom : g.room using Nat.strongRecOn generalizing g next with
  | ind room ih =>
    intro s hc hx
    rcases hg : g.enter next.name with ⟨_ | _ | _, g'⟩
    · have hd := ChainGuard.depth_of_entered hg
      cases hv : visit ⟨next.name, g.depth⟩ with
      | some answer =>
        simp only [climb_of_found hg hd hv]
        exact ⟨trivial, hc, hx⟩
      | none =>
        obtain ⟨he, hc', hx'⟩ := indifferent_parentOf h next s hc hx
        rcases hp : s.parentOf next with ⟨_ | parent, t⟩ <;> simp only [hp] at he hc' hx'
        · simp only [climb_of_top hg hd hv hp, climb_of_top hg hd hv he]
          exact ⟨trivial, hc', hx'⟩
        · have hlt : g'.room < room := hroom ▸ ChainGuard.room_lt_of_entered hg
          obtain ⟨hw, hc', hx'⟩ := ih g'.room hlt g' (.node parent) rfl t.countHop hc' hx'
          have hcount : (t.withCatalog c').countHop = t.countHop.withCatalog c' := rfl
          simp only [climb_of_up hg hd hv hp, climb_of_up hg hd hv he, hcount, hw]
          exact ⟨trivial, hc', hx'⟩
    · simp only [climb_of_cycle hg]
      exact indifferent_report _ _ _ s hc hx
    · simp only [climb_of_tooDeep hg]
      exact indifferent_report _ _ _ s hc hx

theorem indifferent_walk (root : Root) (visit : Level → Option β) :
    Indifferent c c' x (·.walk root visit) := by
  intro s hc hx
  exact indifferent_climb h visit root.name (.ofLimit s.limit) root s hc hx

theorem indifferent_superChain (root : Root) : Indifferent c c' x (·.superChain root) :=
  (indifferent_walk h root fun _ => (none : Option Unit)).map fun w => w.levels.map Level.name

theorem indifferent_findField (root : Root) (name : String) :
    Indifferent c c' x (·.findField root name) := by
  intro s hc hx
  simp only [findField, catalog_withCatalog, scope_withCatalog, hc, hx, h.field?]
  exact ((indifferent_walk h root _).map Walk.found).emit (fun found =>
    .fieldSought root.name name (found.map FieldDef.className)) s hc hx

theorem indifferent_findMethod (root : Root) (name : String) :
    Indifferent c c' x (·.findMethod root name) := by
  intro s hc hx
  simp only [findMethod, catalog_withCatalog, scope_withCatalog, hc, hx, h.method?, h.static?]
  exact ((indifferent_walk h root _).map Walk.found).emit (fun found =>
    .methodSought root.name name (found.map fun m : MethodDef => (m.className, m.isStatic)))
    s hc hx

theorem indifferent_fieldTypes (root : Root) (name : String) :
    Indifferent c c' x (·.fieldTypes root name) := by
  intro s hc hx
  simp only [fieldTypes, catalog_withCatalog, scope_withCatalog, hc, hx, h.field?]
  exact (indifferent_walk h root _).map (fun w => w.found.join) s hc hx

/-! ## Candidates -/

section
variable (root : Root) (matcher : Matcher) (asField : Bool) (sink : Array Candidate)

theorem offerFields_withCatalog {s : Session} (hc : s.catalog = c) (hx : s.scope = x)
    (chain : List String) :
    (s.withCatalog c').offerFields matcher chain = s.offerFields matcher chain := by
  simp only [offerFields, catalog_withCatalog, scope_withCatalog, hc, hx, h.fields]

theorem offerStatics_withCatalog {s : Session} (hc : s.catalog = c) (hx : s.scope = x)
    (chain : List String) :
    (s.withCatalog c').offerStatics matcher chain = s.offerStatics matcher chain := by
  simp only [offerStatics, catalog_withCatalog, scope_withCatalog, hc, hx, h.statics]

theorem offerMethods_withCatalog {s : Session} (hc : s.catalog = c) (hx : s.scope = x)
    (chain : List String) :
    (s.withCatalog c').offerMethods matcher asField chain =
      s.offerMethods matcher asField chain := by
  simp only [offerMethods, catalog_withCatalog, scope_withCatalog, hc, hx, h.methods]

/-- What is offered along a chain is the same over both catalogs. -/
theorem indifferent_offer (offer : Session → List String → Harvest)
    (ho : ∀ s : Session, s.catalog = c → s.scope = x →
      ∀ chain, offer (s.withCatalog c') chain = offer s chain) :
    Indifferent c c' x fun s => let (chain, s) := s.superChain root; (offer s chain, s) := by
  intro s hc hx
  obtain ⟨he, hc', hx'⟩ := indifferent_superChain h root s hc hx
  simp only [he, ho _ hc' hx']
  exact ⟨trivial, hc', hx'⟩

theorem indifferent_collectFields : Indifferent c c' x (·.collectFields root matcher sink) :=
  indifferent_offer h root (fun s chain => s.offerFields matcher chain ⟨sink, 0⟩)
    fun _ hc hx chain => congrFun (offerFields_withCatalog h matcher hc hx chain) _

theorem indifferent_collectStatics : Indifferent c c' x (·.collectStatics root matcher sink) :=
  indifferent_offer h root (fun s chain => s.offerStatics matcher chain ⟨sink, 0⟩)
    fun _ hc hx chain => congrFun (offerStatics_withCatalog h matcher hc hx chain) _

theorem indifferent_collectMethods :
    Indifferent c c' x (·.collectMethods root matcher asField sink) :=
  indifferent_offer h root (fun s chain => s.offerMethods matcher asField chain ⟨sink, 0⟩)
    fun _ hc hx chain => congrFun (offerMethods_withCatalog h matcher asField hc hx chain) _

theorem indifferent_collect : Indifferent c c' x (·.collect root matcher asField sink) := by
  intro s hc hx
  obtain ⟨he, hc', hx'⟩ := indifferent_superChain h root s hc hx
  simp only [collect, he, offerFields_withCatalog h matcher hc' hx',
    offerStatics_withCatalog h matcher hc' hx',
    offerMethods_withCatalog h matcher asField hc' hx']
  exact ⟨rfl, hc', hx'⟩

end

/-! ## All operations -/

theorem indifferent_perform (op : Operation) : Indifferent c c' x (·.perform op) := by
  cases op with
  | resolveClass name => exact (indifferent_resolveClass h name).map Answer.node
  | takeDiagnostics => exact fun s hc hx => ⟨rfl, hc, hx⟩
  | superType root => exact (indifferent_parentOf h root).map Answer.node
  | superChain root => exact (indifferent_superChain h root).map Answer.chain
  | walk root visit =>
    exact (indifferent_walk h root visit).map fun w => Answer.walk w.levels w.found
  | findField root name => exact (indifferent_findField h root name).map Answer.field
  | findMethod root name => exact (indifferent_findMethod h root name).map Answer.method
  | fieldTypes root name => exact (indifferent_fieldTypes h root name).map Answer.types
  | collect root matcher asField =>
    exact (indifferent_collect h root matcher asField #[]).map Answer.ofHarvest
  | collectFields root matcher =>
    exact (indifferent_collectFields h root matcher #[]).map Answer.ofHarvest
  | collectStatics root matcher =>
    exact (indifferent_collectStatics h root matcher #[]).map Answer.ofHarvest
  | collectMethods root matcher asField =>
    exact (indifferent_collectMethods h root matcher asField #[]).map Answer.ofHarvest

theorem indifferent_performAll (ops : List Operation) :
    Indifferent c c' x fun s => ((), s.performAll ops) := by
  induction ops with
  | nil => exact indifferent_pure ()
  | cons op ops ih => exact (indifferent_perform h op).bind fun _ => ih

end

end Session

end Lineage
