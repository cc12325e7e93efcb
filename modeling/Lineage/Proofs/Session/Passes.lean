import Lineage.Proofs.Session.Candidates

/-!
# One pass and three

A host may collect all members at once, or the fields, the static methods and the instance methods
one after the other. The second way walks the chain three times, and what the later walks meet is
known from the first: their classes are in the memory and their fault is among the diagnostics. An
effort that is made again leaves both as they were (`After.again`).
-/

namespace Lineage

theorem Diagnostic.merge_of_subset {known new : List Diagnostic} (h : new ⊆ known) :
    merge known new = known := by
  have hnone : (merge [] new).filter (· ∉ known) = [] := by
    rw [List.filter_eq_nil_iff]
    intro d hd
    have hnew : d ∈ new := (mem_merge.mp hd).resolve_left List.not_mem_nil
    simpa using h hnew
  rw [merge_eq_append, hnone, List.append_nil]

namespace Session

section
variable {c : Catalog} {x : Context} {limit : Option UInt32} {s t u : Session} {e : Effort}

theorem After.again (h : s.After e t) (h' : t.After e u) :
    u.diagnostics = t.diagnostics ∧ ∀ name, name ∈ u.memo ↔ name ∈ t.memo := by
  refine ⟨?_, fun name => ?_⟩
  · rw [h'.diagnostics, Diagnostic.merge_of_subset]
    intro d hd
    rw [h.diagnostics, Diagnostic.mem_merge]
    exact .inr hd
  · rw [h'.memo, h.memo]
    tauto

/-- Sessions that know the same names know the same of them. -/
theorem Serves.getElem?_memo_eq (hs : s.Serves c x limit) (ht : t.Serves c x limit)
    (h : ∀ name, name ∈ s.memo ↔ name ∈ t.memo) (name : String) :
    s.memo[name]? = t.memo[name]? := by
  cases hm : s.memo[name]? with
  | none =>
    have hnot : name ∉ s.memo := by
      rw [← Std.TreeMap.isSome_getElem?_iff_mem, hm]
      exact Bool.false_ne_true
    exact (Std.TreeMap.getElem?_eq_none (mt (h name).mpr hnot)).symm
  | some node =>
    have hmem : name ∈ t.memo := by
      rw [← h, ← Std.TreeMap.isSome_getElem?_iff_mem, hm, Option.isSome_some]
    rw [← Std.TreeMap.isSome_getElem?_iff_mem, Option.isSome_iff_exists] at hmem
    obtain ⟨other, hother⟩ := hmem
    rw [hother, hs.memo name node hm, ht.memo name other hother]

end

/-- To collect all members, or the fields, then the static methods and then the instance methods,
in the same session: the sink has the same candidates, as many as the three have added together,
and the session has the same diagnostics and the same memory. -/
theorem collect_eq_three_passes (c : Catalog) (x : Context) (limit : Option UInt32)
    (ops : List Operation) (root : Root) (matcher : Matcher) (asField : Bool)
    (sink : Array Candidate) :
    let s := (start c x limit).performAll ops
    let all := s.collect root matcher asField sink
    let fields := s.collectFields root matcher sink
    let statics := fields.2.collectStatics root matcher fields.1.entries
    let methods := statics.2.collectMethods root matcher asField statics.1.entries
    methods.1.entries = all.1.entries ∧
      fields.1.count + statics.1.count + methods.1.count = all.1.count ∧
      methods.2.diagnostics = all.2.diagnostics ∧
      ∀ name : String, methods.2.memo[name]? = all.2.memo[name]? := by
  intro s all fields statics methods
  have hs : s.Serves c x limit := (serves_start _ _ _).performAll ops
  obtain ⟨w, e, h⟩ := exists_ascends c x.scope (levelBound limit)
    (fun _ => (none : Option Unit)) root.name [] root
  obtain ⟨(hall : all.1 = _), hs', ha⟩ := answers_collect matcher asField sink h s hs
  obtain ⟨(hfields : fields.1 = _), hs₁, h₁⟩ := answers_collectFields matcher sink h s hs
  obtain ⟨(hstatics : statics.1 = _), hs₂, h₂⟩ :=
    answers_collectStatics matcher fields.1.entries h fields.2 hs₁
  obtain ⟨(hmethods : methods.1 = _), hs₃, h₃⟩ :=
    answers_collectMethods matcher asField statics.1.entries h statics.2 hs₂
  -- Every pass makes the same effort, which counts once.
  obtain ⟨hd₂, hm₂⟩ := h₁.again h₂
  obtain ⟨hd₃, hm₃⟩ := h₂.again h₃
  have hadds {α : Type} (declared : String → List α) (atLevel : String → Nat → α → Candidate) :
      ∃ cs, ∀ h, Harvest.offerAll matcher (w.levels.map Level.name) declared atLevel h =
        h.add cs := ⟨_, Harvest.offerAll_eq_add_levels _ _ _ _⟩
  obtain ⟨fs, hfs⟩ := hadds (c.fields · x.scope) Candidate.ofField
  obtain ⟨ss, hss⟩ := hadds (c.statics · x.scope) Candidate.ofStatic
  obtain ⟨ms, hms⟩ := hadds (c.methods · x.scope) (Candidate.ofMethod asField)
  rw [hfs, hss, hms] at hall
  rw [hfs] at hfields
  rw [hss] at hstatics
  rw [hms] at hmethods
  refine ⟨?_, ?_, ?_, ?_⟩
  · rw [hall, hmethods, hstatics, hfields]
    rfl
  · rw [hall, hmethods, hstatics, hfields]
    simp only [Harvest.add, Nat.zero_add]
  · rw [ha.diagnostics, ← h₁.diagnostics]
    exact hd₃.trans hd₂
  · refine hs₃.getElem?_memo_eq hs' fun name => ?_
    rw [hm₃, hm₂, h₁.memo, ha.memo]

/-- In a loop the three walks come back to the root three times, and this is reported once. -/
example :
    let s := start Index.loop.catalog ⟨0, .project⟩
    let root := Root.node (.declared "A" (some "B"))
    let all := (s.collect root .all false #[]).2
    let fields := (s.collectFields root .all #[]).2
    let methods := ((fields.collectStatics root .all #[]).2.collectMethods root .all false #[]).2
    all.stats = ⟨2, 2, 0⟩ ∧ methods.stats = ⟨6, 2, 4⟩ ∧
      methods.diagnostics = [.cyclic "A" "A"] ∧ all.diagnostics = [.cyclic "A" "A"] := by
  decide +kernel

end Session

end Lineage
