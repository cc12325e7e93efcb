import Lineage.Proofs.Index
import Lineage.Proofs.Session.Ascent
import Lineage.Session.Operation

/-!
# All operations

Every operation but taking the diagnostics has an answer and an effort of its own, which depend on
the catalog, the context and the limit and on nothing that was asked before. A look-up that would
have gone to the catalog may go to the memory of the session, but it is counted all the same. To the
diagnostics a request adds those that are new.
-/

namespace Lineage.Session

section
variable {c : Catalog} {x : Context} {limit : Option UInt32}

theorem Serves.scope {s : Session} (h : s.Serves c x limit) : s.scope = x.scope := by
  rw [Session.scope, h.context]

section
variable {root : Root} {name : String} {e : Effort}

theorem answers_findField {w : Walk FieldDef}
    (h : Ascends c x.scope (levelBound limit) (fun l => c.field? l.name name x.scope) root.name []
      root w e) :
    Answers c x limit (·.findField root name) w.found e := by
  intro s hs
  simp only [findField, hs.catalog, hs.scope]
  exact (((answers_walk h).map Walk.found).emit fun found =>
    .fieldSought root.name name (found.map FieldDef.className)) s hs

theorem answers_findMethod {w : Walk MethodDef}
    (h : Ascends c x.scope (levelBound limit)
      (fun l => (c.method? l.name name x.scope).or (c.static? l.name name x.scope)) root.name []
      root w e) :
    Answers c x limit (·.findMethod root name) w.found e := by
  intro s hs
  simp only [findMethod, hs.catalog, hs.scope]
  exact (((answers_walk h).map Walk.found).emit fun found =>
    .methodSought root.name name (found.map fun m => (m.className, m.isStatic))) s hs

theorem answers_fieldTypes {w : Walk (Option TypeSet)}
    (h : Ascends c x.scope (levelBound limit)
      (fun l => (c.field? l.name name x.scope).map FieldDef.types) root.name [] root w e) :
    Answers c x limit (·.fieldTypes root name) w.found.join e := by
  intro s hs
  simp only [fieldTypes, hs.catalog, hs.scope]
  exact (answers_walk h).map (fun w => w.found.join) s hs

end

section
variable {root : Root} {w : Walk Unit} {e : Effort} {s : Session}
  (matcher : Matcher) (asField : Bool) (sink : Array Candidate)

theorem Serves.offerFields (h : s.Serves c x limit) (chain : List String) :
    s.offerFields matcher chain =
      Harvest.offerAll matcher chain (c.fields · x.scope) Candidate.ofField := by
  unfold Session.offerFields
  rw [h.catalog, h.scope]

theorem Serves.offerStatics (h : s.Serves c x limit) (chain : List String) :
    s.offerStatics matcher chain =
      Harvest.offerAll matcher chain (c.statics · x.scope) Candidate.ofStatic := by
  unfold Session.offerStatics
  rw [h.catalog, h.scope]

theorem Serves.offerMethods (h : s.Serves c x limit) (chain : List String) :
    s.offerMethods matcher asField chain =
      Harvest.offerAll matcher chain (c.methods · x.scope) (Candidate.ofMethod asField) := by
  unfold Session.offerMethods
  rw [h.catalog, h.scope]

/-- What is offered to a harvest does not depend on the session that offers it. -/
theorem answers_offer
    (h : Ascends c x.scope (levelBound limit) (fun _ => none) root.name [] root w e)
    {offer : Session → List String → Harvest} {chained : List String → Harvest}
    (ho : ∀ s : Session, s.Serves c x limit → ∀ chain, offer s chain = chained chain) :
    Answers c x limit (fun s => let (chain, s) := s.superChain root; (offer s chain, s))
      (chained (w.levels.map Level.name)) e := by
  intro s hs
  obtain ⟨hc, ht, he⟩ := answers_superChain h s hs
  simp only [ho _ ht]
  exact ⟨congrArg chained hc, ht, he⟩

theorem answers_collectFields
    (h : Ascends c x.scope (levelBound limit) (fun _ => none) root.name [] root w e) :
    Answers c x limit (·.collectFields root matcher sink)
      (Harvest.offerAll matcher (w.levels.map Level.name) (c.fields · x.scope) Candidate.ofField
        ⟨sink, 0⟩) e :=
  answers_offer h fun _ hs chain => congrFun (hs.offerFields matcher chain) _

theorem answers_collectStatics
    (h : Ascends c x.scope (levelBound limit) (fun _ => none) root.name [] root w e) :
    Answers c x limit (·.collectStatics root matcher sink)
      (Harvest.offerAll matcher (w.levels.map Level.name) (c.statics · x.scope)
        Candidate.ofStatic ⟨sink, 0⟩) e :=
  answers_offer h fun _ hs chain => congrFun (hs.offerStatics matcher chain) _

theorem answers_collectMethods
    (h : Ascends c x.scope (levelBound limit) (fun _ => none) root.name [] root w e) :
    Answers c x limit (·.collectMethods root matcher asField sink)
      (Harvest.offerAll matcher (w.levels.map Level.name) (c.methods · x.scope)
        (Candidate.ofMethod asField) ⟨sink, 0⟩) e :=
  answers_offer h fun _ hs chain => congrFun (hs.offerMethods matcher asField chain) _

theorem answers_collect
    (h : Ascends c x.scope (levelBound limit) (fun _ => none) root.name [] root w e) :
    Answers c x limit (·.collect root matcher asField sink)
      (Harvest.offerAll matcher (w.levels.map Level.name) (c.methods · x.scope)
        (Candidate.ofMethod asField)
        (Harvest.offerAll matcher (w.levels.map Level.name) (c.statics · x.scope)
          Candidate.ofStatic
          (Harvest.offerAll matcher (w.levels.map Level.name) (c.fields · x.scope)
            Candidate.ofField ⟨sink, 0⟩))) e := by
  intro s hs
  obtain ⟨hc, ht, he⟩ := answers_superChain h s hs
  simp only [collect, ht.offerFields, ht.offerStatics, ht.offerMethods]
  refine ⟨?_, ht.emit _, he.emit _⟩
  rw [hc]

end

/-! ## All operations -/

/-- Only `takeDiagnostics` shows what a session has done before. -/
theorem exists_answers_perform (c : Catalog) (x : Context) (limit : Option UInt32)
    {op : Operation} (hop : op ≠ .takeDiagnostics) :
    ∃ a e, Answers c x limit (·.perform op) a e := by
  have hchain (root : Root) := exists_ascends c x.scope (levelBound limit)
    (fun _ => (none : Option Unit)) root.name [] root
  cases op with
  | resolveClass name => exact ⟨_, _, (answers_resolveClass name).map Answer.node⟩
  | takeDiagnostics => exact absurd rfl hop
  | superType root => exact ⟨_, _, (answers_parentOf root).map Answer.node⟩
  | superChain root =>
    obtain ⟨w, e, h⟩ := hchain root
    exact ⟨_, _, (answers_superChain h).map Answer.chain⟩
  | walk root visit =>
    obtain ⟨w, e, h⟩ := exists_ascends c x.scope (levelBound limit) visit root.name [] root
    exact ⟨_, _, (answers_walk h).map fun w => Answer.walk w.levels w.found⟩
  | findField root name =>
    obtain ⟨w, e, h⟩ := exists_ascends c x.scope (levelBound limit) _ root.name [] root
    exact ⟨_, _, (answers_findField h).map Answer.field⟩
  | findMethod root name =>
    obtain ⟨w, e, h⟩ := exists_ascends c x.scope (levelBound limit) _ root.name [] root
    exact ⟨_, _, (answers_findMethod h).map Answer.method⟩
  | fieldTypes root name =>
    obtain ⟨w, e, h⟩ := exists_ascends c x.scope (levelBound limit) _ root.name [] root
    exact ⟨_, _, (answers_fieldTypes h).map Answer.types⟩
  | collect root matcher asField =>
    obtain ⟨w, e, h⟩ := hchain root
    exact ⟨_, _, (answers_collect matcher asField #[] h).map Answer.ofHarvest⟩
  | collectFields root matcher =>
    obtain ⟨w, e, h⟩ := hchain root
    exact ⟨_, _, (answers_collectFields matcher #[] h).map Answer.ofHarvest⟩
  | collectStatics root matcher =>
    obtain ⟨w, e, h⟩ := hchain root
    exact ⟨_, _, (answers_collectStatics matcher #[] h).map Answer.ofHarvest⟩
  | collectMethods root matcher asField =>
    obtain ⟨w, e, h⟩ := hchain root
    exact ⟨_, _, (answers_collectMethods matcher asField #[] h).map Answer.ofHarvest⟩

theorem Serves.takeDiagnostics {s : Session} (h : s.Serves c x limit) :
    s.takeDiagnostics.2.Serves c x limit :=
  ⟨h.catalog, h.context, h.limit, h.memo⟩

theorem Serves.perform {s : Session} (h : s.Serves c x limit) (op : Operation) :
    (s.perform op).2.Serves c x limit := by
  by_cases hop : op = .takeDiagnostics
  · subst hop
    exact h.takeDiagnostics
  · obtain ⟨a, e, ha⟩ := exists_answers_perform c x limit hop
    exact (ha s h).2.1

theorem Serves.performAll {s : Session} (h : s.Serves c x limit) (ops : List Operation) :
    (s.performAll ops).Serves c x limit := by
  induction ops generalizing s with
  | nil => exact h
  | cons op ops ih => exact ih (h.perform op)

end

/-! ## Histories -/

/-- An operation has the answer and the cost that it would have in a fresh session. -/
theorem perform_performAll (ix : Index) (x : Context) (limit : Option UInt32)
    (ops : List Operation) (op : Operation) (hop : op ≠ .takeDiagnostics) :
    let fresh := start ix.catalog x limit
    let s := fresh.performAll ops
    let t := (s.perform op).2
    let new := (fresh.perform op).2
    (s.perform op).1 = (fresh.perform op).1 ∧
      t.stats.superHops = s.stats.superHops + new.stats.superHops ∧
      t.stats.classLookups + t.stats.memoHits =
        s.stats.classLookups + s.stats.memoHits +
          (new.stats.classLookups + new.stats.memoHits) ∧
      t.diagnostics = s.diagnostics ++ new.diagnostics.filter (· ∉ s.diagnostics) := by
  intro fresh s t new
  have hfresh : fresh.Serves ix.catalog x limit := serves_start _ _ _
  obtain ⟨a, e, h⟩ := exists_answers_perform ix.catalog x limit hop
  obtain ⟨ha, -, he⟩ := h s (hfresh.performAll ops)
  obtain ⟨ha', -, he'⟩ := h fresh hfresh
  refine ⟨ha.trans ha'.symm, ?_, ?_, ?_⟩
  · have hnew : new.stats.superHops = e.hops := by
      rw [he'.superHops]
      exact Nat.zero_add _
    rw [he.superHops, hnew]
  · have hnew : new.stats.classLookups + new.stats.memoHits = e.asked.length := by
      rw [he'.lookups]
      exact Nat.zero_add _
    rw [he.lookups, hnew]
  · have hnew : new.diagnostics = Diagnostic.merge [] e.faults := he'.diagnostics
    rw [he.diagnostics, hnew, Diagnostic.merge_eq_append]

/-- The chain of a loop is the same every time, and the loop is reported once. -/
theorem superChain_loop :
    let chain := Operation.superChain (.node (.declared "A" (some "B")))
    let s := (start Index.loop.catalog ⟨0, .project⟩ none).performAll [.resolveClass "A", chain]
    chain ≠ .takeDiagnostics ∧ (s.perform chain).1 = .chain ["A", "B"] ∧
      (s.perform chain).2.diagnostics = [.cyclic "A" "A"] := by
  intro chain s
  have hop : chain ≠ .takeDiagnostics := nofun
  obtain ⟨ha, -, -, hd⟩ := perform_performAll Index.loop ⟨0, .project⟩ none
    [.resolveClass "A", chain] chain hop
  exact ⟨hop, ha.trans (by decide +kernel), hd.trans (by decide +kernel)⟩

end Lineage.Session
