import Lineage.Proofs.Ancestry

/-!
# Answers and efforts

A session remembers the classes it has looked up. As long as it remembers what the catalog says,
its past does not show in an answer; it shows in counters and diagnostics, and there only as
something to which the new is added. `Answers c x limit f a e` says this of a request `f`: every
session over `c` for `x` under `limit`, whatever it remembers, answers `f` by `a` and has then
made the effort `e`.
-/

namespace Lineage

namespace Diagnostic

/-- Adds the diagnostics of `new` one by one, except where an equal one is there. -/
def merge (known new : List Diagnostic) : List Diagnostic :=
  new.foldl (fun ds d => if d ∈ ds then ds else ds ++ [d]) known

theorem merge_append (known new more : List Diagnostic) :
    merge known (new ++ more) = merge (merge known new) more := by
  simp only [merge, List.foldl_append]

theorem merge_cons (known : List Diagnostic) (d : Diagnostic) (new : List Diagnostic) :
    merge known (d :: new) = merge (if d ∈ known then known else known ++ [d]) new := rfl

theorem mem_merge {known new : List Diagnostic} {d : Diagnostic} :
    d ∈ merge known new ↔ d ∈ known ∨ d ∈ new := by
  induction new generalizing known with
  | nil => simp [merge]
  | cons e new ih =>
    rw [merge_cons, ih]
    split
    · next he =>
      have hde : d = e → d ∈ known := fun h => h ▸ he
      grind
    · simp [or_assoc]

/-- What was there stays in front, and the rest follows as it would by itself. -/
theorem merge_eq_append (known new : List Diagnostic) :
    merge known new = known ++ (merge [] new).filter (· ∉ known) := by
  induction new generalizing known with
  | nil => simp [merge]
  | cons d new ih =>
    rw [merge_cons, merge_cons, if_neg List.not_mem_nil, List.nil_append, ih [d]]
    by_cases hd : d ∈ known
    · rw [if_pos hd, ih known, List.filter_append, List.filter_filter]
      have hne : ∀ e ∈ merge [] new,
          (decide (e ∉ known) && decide (e ∉ [d])) = decide (e ∉ known) := by
        intro e _
        by_cases he : e = d
        · simp [he, hd]
        · simp [he]
      rw [List.filter_congr hne]
      simp [hd]
    · rw [if_neg hd, ih (known ++ [d])]
      simp [List.filter_filter, hd, Bool.and_comm]

theorem merge_toList (known : List Diagnostic) (fault : Option Diagnostic) :
    merge known fault.toList = known ++ fault.toList.filter (· ∉ known) := by
  rw [merge_eq_append]
  cases fault <;> rfl

end Diagnostic

/-! ## Efforts -/

/-- What a request costs a session, and what it gives it to report. -/
structure Effort where
  hops : Nat := 0
  /-- The classes that are looked up, one after the other. -/
  asked : List String := []
  faults : List Diagnostic := []

namespace Effort

instance : Append Effort where
  append e f := ⟨e.hops + f.hops, e.asked ++ f.asked, e.faults ++ f.faults⟩

@[simp] theorem hops_append (e f : Effort) : (e ++ f).hops = e.hops + f.hops := rfl

@[simp] theorem asked_append (e f : Effort) : (e ++ f).asked = e.asked ++ f.asked := rfl

@[simp] theorem faults_append (e f : Effort) : (e ++ f).faults = e.faults ++ f.faults := rfl

end Effort

namespace Session

/-- `s` is over `c` for `x` under `limit`, and remembers what the catalog says. -/
structure Serves (c : Catalog) (x : Context) (limit : Option UInt32) (s : Session) : Prop where
  catalog : s.catalog = c
  context : s.context = x
  limit : s.limit = limit.map (max 1)
  memo : ∀ (name : String) (node : Option TypeNode), s.memo[name]? = some node →
    node = c.node? x.scope name

/-- `t` is `s` after the effort `e`. -/
structure After (s : Session) (e : Effort) (t : Session) : Prop where
  superHops : t.stats.superHops = s.stats.superHops + e.hops
  lookups : t.stats.classLookups + t.stats.memoHits =
    s.stats.classLookups + s.stats.memoHits + e.asked.length
  memo : ∀ name, name ∈ t.memo ↔ name ∈ s.memo ∨ name ∈ e.asked
  diagnostics : t.diagnostics = Diagnostic.merge s.diagnostics e.faults

theorem serves_start (c : Catalog) (x : Context) (limit : Option UInt32) :
    (start c x limit).Serves c x limit :=
  ⟨rfl, rfl, rfl, by simp [start]⟩

theorem After.refl (s : Session) : s.After {} s := by
  constructor <;> simp [Diagnostic.merge]

theorem After.trans {s t u : Session} {e f : Effort} (h : s.After e t) (h' : t.After f u) :
    s.After (e ++ f) u where
  superHops := by rw [h'.superHops, h.superHops, Effort.hops_append, Nat.add_assoc]
  lookups := by
    rw [h'.lookups, h.lookups, Effort.asked_append, List.length_append, Nat.add_assoc]
  memo name := by rw [h'.memo, h.memo, Effort.asked_append, List.mem_append, or_assoc]
  diagnostics := by
    rw [h'.diagnostics, h.diagnostics, Effort.faults_append, Diagnostic.merge_append]

/-! The log does not count as an effort. -/

theorem Serves.emit {c : Catalog} {x : Context} {limit : Option UInt32} {s : Session}
    (h : s.Serves c x limit) (event : Event) : (s.emit event).Serves c x limit :=
  ⟨h.catalog, h.context, h.limit, h.memo⟩

theorem After.emit {s t : Session} {e : Effort} (h : s.After e t) (event : Event) :
    s.After e (t.emit event) :=
  ⟨h.superHops, h.lookups, h.memo, h.diagnostics⟩

section
variable (c : Catalog) (x : Context) (limit : Option UInt32) {α β : Type}

/-- Whatever it remembers, a session over `c` for `x` under `limit` answers `f` by `a`, with the
effort `e`. -/
def Answers (f : Session → α × Session) (a : α) (e : Effort) : Prop :=
  ∀ s : Session, s.Serves c x limit →
    (f s).1 = a ∧ (f s).2.Serves c x limit ∧ s.After e (f s).2

variable {c x limit} {f : Session → α × Session} {a : α} {e : Effort}

theorem answers_pure (a : α) : Answers c x limit (fun s => (a, s)) a {} :=
  fun s hs => ⟨rfl, hs, .refl s⟩

theorem Answers.map (hf : Answers c x limit f a e) (g : α → β) :
    Answers c x limit (fun s => (g (f s).1, (f s).2)) (g a) e := by
  intro s hs
  obtain ⟨ha, hs', he⟩ := hf s hs
  exact ⟨congrArg g ha, hs', he⟩

theorem Answers.emit (hf : Answers c x limit f a e) (event : α → Event) :
    Answers c x limit (fun s => ((f s).1, (f s).2.emit (event (f s).1))) a e := by
  intro s hs
  obtain ⟨ha, hs', he⟩ := hf s hs
  exact ⟨ha, hs'.emit _, he.emit _⟩

theorem answers_resolveClass (name : String) :
    Answers c x limit (·.resolveClass name) (c.node? x.scope name) { asked := [name] } := by
  intro s hs
  show (s.resolveClass name).1 = _ ∧ (s.resolveClass name).2.Serves c x limit ∧
    s.After _ (s.resolveClass name).2
  cases hm : s.memo[name]? with
  | some known =>
    have hmem : name ∈ s.memo := by
      rw [← Std.TreeMap.isSome_getElem?_iff_mem, hm, Option.isSome_some]
    simp only [resolveClass_eq, hm]
    refine ⟨hs.memo name known hm, ⟨hs.catalog, hs.context, hs.limit, hs.memo⟩, ⟨rfl, ?_, ?_, rfl⟩⟩
    · simp only [List.length_singleton]
      omega
    · intro other
      rw [List.mem_singleton, iff_self_or]
      rintro rfl
      exact hmem
  | none =>
    have hnode : (s.catalog.class? name s.scope).map TypeNode.ofRecord = c.node? x.scope name := by
      rw [hs.catalog, Session.scope, hs.context, Catalog.node?]
    simp only [resolveClass_eq, hm, hnode]
    refine ⟨trivial, ⟨hs.catalog, hs.context, hs.limit, fun other node h => ?_⟩, ⟨rfl, ?_, ?_, rfl⟩⟩
    · rw [Std.TreeMap.getElem?_insert] at h
      split at h
      · next heq =>
        cases h
        rw [Std.LawfulEqCmp.eq_of_compare heq]
      · exact hs.memo other node h
    · simp only [List.length_singleton]
      omega
    · intro other
      rw [Std.TreeMap.mem_insert, Std.LawfulEqCmp.compare_eq_iff_eq, List.mem_singleton, or_comm,
        eq_comm]

theorem answers_superType (n : TypeNode) :
    Answers c x limit (·.superType n) (c.parent? x.scope (.node n))
      { asked := n.superName.toList } := by
  simp only [superType, Catalog.parent?, Root.superName_node]
  cases n.superName with
  | none => exact answers_pure none
  | some name =>
    intro s hs
    obtain ⟨ha, hs', he⟩ := answers_resolveClass name s hs
    rcases hr : s.resolveClass name with ⟨_ | parent, t⟩
    · simp only [hr] at ha hs' he ⊢
      exact ⟨ha, hs'.emit _, he.emit _⟩
    · simp only [hr] at ha hs' he ⊢
      exact ⟨ha, hs', he⟩

theorem answers_parentOf (r : Root) :
    Answers c x limit (·.parentOf r) (c.parent? x.scope r) { asked := r.superName.toList } := by
  cases r with
  | node n =>
    rw [Root.superName_node]
    exact answers_superType n
  | detached name => exact answers_pure none

end

end Session

end Lineage
