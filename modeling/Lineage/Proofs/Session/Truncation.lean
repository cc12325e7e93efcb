import Lineage.Completion
import Lineage.Proofs.Session.Candidates
import Lineage.Proofs.Session.Member

/-!
# Walks under a limit

A limit takes away what stands above it and nothing else. The chain is cut after so many levels; a
member is found if the class that has it is still on the chain; a completion offers what these
classes declare. A chain that was cut is reported as too deep, and one that was short enough ends
as it does without a limit: where no class has a parent any more, or where it comes back to itself.
-/

namespace Lineage

namespace Catalog

section
variable {c : Catalog} {x : Scope} {bound : Nat} {root : Root} {seen known : List String}
  (hknown : ∀ i r, c.ancestor? x root (i + 1) = some r → r.name ∈ known)
include hknown

/-- All names of a chain but that of the root are names of classes. -/
theorem Passed.tail_subset (h : c.Passed x bound root seen) : seen.tail ⊆ known := by
  intro name hname
  obtain ⟨i, hi, rfl⟩ := List.getElem_of_mem hname
  rw [List.length_tail] at hi
  obtain ⟨r, hr, hrn⟩ := h.ancestor (i := i + 1) (by omega)
  rw [List.getElem_tail, ← hrn]
  exact hknown i r hr

/-- A chain does not get too deep for a limit that is larger than the number of classes. -/
theorem Passed.not_tooDeep {p : Root} (h : c.Passed x bound root seen) (hpos : 0 < bound)
    (hbound : known.length < bound) (hp : c.ancestor? x root bound = some p)
    (hfresh : p.name ∉ seen) : seen.length ≠ bound := by
  rintro rfl
  obtain ⟨n, hn⟩ : ∃ n, seen.length = n + 1 := ⟨seen.length - 1, by omega⟩
  have hmem : p.name ∈ known := hknown n p (hn ▸ hp)
  have hnodup : (p.name :: seen.tail).Nodup :=
    List.nodup_cons.mpr ⟨fun h => hfresh (List.mem_of_mem_tail h), h.nodup.tail⟩
  have hle := hnodup.length_le_of_subset (List.cons_subset.mpr ⟨hmem, h.tail_subset hknown⟩)
  rw [List.length_cons, List.length_tail] at hle
  omega

end

end Catalog

/-- Without a limit a chain ends because no parent is left, or because it comes back to itself. -/
theorem exists_ascends_unlimited {ix : Index} (hsize : ix.classCount < UInt32.size - 1)
    (x : Scope) (root : Root) :
    ∃ w e, Ascends ix.catalog x (levelBound none) (fun _ => (none : Option Unit)) root.name [] root
        w e ∧
      match ix.catalog.ancestor? x root w.levels.length with
      | none => e.faults = []
      | some p => p.name ∈ w.levels.map Level.name ∧ e.faults = [.cyclic root.name p.name] := by
  obtain ⟨w, e, h⟩ := exists_ascends ix.catalog x (levelBound none)
    (fun _ => (none : Option Unit)) root.name [] root
  obtain ⟨fault, hh, hp, -, -, he⟩ := h.halts Catalog.passed_nil rfl
  rw [List.length_nil, Nat.zero_add] at hh
  rw [List.nil_append] at hp
  refine ⟨w, e, h, ?_⟩
  cases hh with
  | top hnone => simp [hnone, he]
  | cycle hsome hi hq hname =>
    rw [hsome]
    exact ⟨hp.mem_iff.mpr ⟨_, by simpa using hi, _, hq, hname⟩, he⟩
  | @tooDeep p hsome hfresh hfull =>
    -- There are not so many classes.
    have hbound : ix.classNames.length < levelBound none := by
      rw [ix.length_classNames]
      exact hsize
    have hmem : p.name ∉ w.levels.map Level.name := by
      rw [hp.mem_iff]
      rintro ⟨i, hi, r, hr, hname⟩
      exact hfresh i (by simpa using hi) r hr hname
    exact absurd (by rw [List.length_map, hfull]) (hp.not_tooDeep
      (fun _ _ => Index.mem_classNames_of_ancestor?) (levelBound_pos none) hbound (hfull ▸ hsome)
      hmem)

/-- A completion offers what a new session collects. -/
theorem CompletionRequest.entries_complete? (r : CompletionRequest) (c : Catalog) (root : Root) :
    (r.complete? c root).map (·.1.entries) = r.project.map fun project =>
      ((Session.start c ⟨project, r.scope⟩ r.limit).collect root r.matcher r.asField
        #[]).1.entries.toList := by
  rw [complete?, context?, Option.map_map, Option.map_map]
  rfl

/-! ## Shorter chains -/

/-- A walk under a limit stops where the limit is reached, or else goes as it would without. -/
theorem Ascends.truncate {β : Type} {c : Catalog} {x : Scope} {bound limit : Nat}
    (hle : limit ≤ bound) {root : String} {seen : List String} {next : Root} {w : Walk β}
    {e : Effort} (h : Ascends c x bound (fun _ => none) root seen next w e)
    (hseen : seen.length ≤ limit) :
    ∃ w' e', Ascends c x limit (fun _ => (none : Option β)) root seen next w' e' ∧
      w'.levels = w.levels.take (limit - seen.length) ∧
      e'.faults =
        if limit < seen.length + w.levels.length then [.tooDeep root limit] else e.faults := by
  induction h with
  | cycle hmem => exact ⟨_, _, .cycle hmem, by simp, by simp [Nat.not_lt.mpr hseen]⟩
  | @tooDeep seen next hmem hfull =>
    obtain rfl : limit = bound := by omega
    exact ⟨_, _, .tooDeep hmem hfull, by simp, by simp⟩
  | found _ _ hv => cases hv
  | @top seen next hmem hlt _ hp =>
    by_cases hfull : limit ≤ seen.length
    · refine ⟨_, _, .tooDeep hmem hfull, by simp [Nat.sub_eq_zero_of_le hfull], ?_⟩
      rw [if_pos (by simp; omega)]
    · refine ⟨_, _, .top hmem (by omega) rfl hp, ?_, ?_⟩
      · rw [List.take_cons (by omega), List.take_nil]
      · rw [if_neg (by simp; omega)]
  | @up seen next parent w e hmem hlt _ hp _ ih =>
    by_cases hfull : limit ≤ seen.length
    · refine ⟨_, _, .tooDeep hmem hfull, by simp [Nat.sub_eq_zero_of_le hfull], ?_⟩
      rw [if_pos (by simp; omega)]
    · have hlength : (seen ++ [next.name]).length = seen.length + 1 := by simp
      rw [hlength] at ih
      obtain ⟨w', e', h', hlevels, hfaults⟩ := ih (by omega)
      refine ⟨_, _, .up hmem (by omega) rfl hp h', ?_, ?_⟩
      · rw [List.take_cons (by omega), hlevels, Nat.sub_sub]
      · simpa [Nat.add_assoc, Nat.add_comm 1] using hfaults

/-- What is found among the first classes is what is found at all, if its class is one of these. -/
theorem findSome?_eq_filter {α : Type} {own : String → Option α} {owner : α → String}
    (hown : ∀ c a, own c = some a → owner a = c) (near far : List String) :
    near.findSome? own = ((near ++ far).findSome? own).filter (owner · ∈ near) := by
  rw [List.findSome?_append]
  cases ha : near.findSome? own with
  | some a =>
    obtain ⟨c, hc, hca⟩ := List.exists_of_findSome?_eq_some ha
    rw [Option.some_or, Option.filter_some_pos (by simpa [hown c a hca] using hc)]
  | none =>
    rw [Option.none_or, eq_comm, Option.filter_eq_none_iff]
    intro a hfar hmem
    obtain ⟨c, -, hca⟩ := List.exists_of_findSome?_eq_some hfar
    rw [List.findSome?_eq_none_iff] at ha
    rw [hown c a hca, decide_eq_true_eq] at hmem
    rw [ha c hmem] at hca
    cases hca

/-- The candidates of the first classes are those whose owner is one of these. -/
theorem Candidate.listing_eq_filter {α : Type} {declared : String → List α}
    {candidate : α → Candidate} (howner : ∀ c, ∀ m ∈ declared c, (candidate m).owner = c)
    {near far : List String} (hdisjoint : near.Disjoint far) (matcher : Matcher) :
    listing matcher near declared candidate =
      (listing matcher (near ++ far) declared candidate).filter (·.owner ∈ near) := by
  have hmem : ∀ chain : List String, ∀ e ∈ listing matcher chain declared candidate,
      e.owner ∈ chain := by
    intro chain e he
    obtain ⟨c, hc, he⟩ := List.mem_flatMap.mp he
    obtain ⟨m, hm, rfl⟩ := List.mem_map.mp (List.mem_of_mem_filter he)
    exact (howner c m hm).symm ▸ hc
  have hnear : (listing matcher near declared candidate).filter (·.owner ∈ near) =
      listing matcher near declared candidate :=
    List.filter_eq_self.mpr fun e he => decide_eq_true (hmem near e he)
  have hfar : (listing matcher far declared candidate).filter (·.owner ∈ near) = [] :=
    List.filter_eq_nil_iff.mpr fun e he hn => hdisjoint (of_decide_eq_true hn) (hmem far e he)
  have happend : listing matcher (near ++ far) declared candidate =
      listing matcher near declared candidate ++ listing matcher far declared candidate :=
    List.flatMap_append
  rw [happend, List.filter_append, hnear, hfar, List.append_nil]

namespace Session

section
variable {ix : Index} {x : Context} {limit limit' : Option UInt32} {s t : Session} {root : Root}
  {far : List String} (hs : s.Serves ix.catalog x limit) (ht : t.Serves ix.catalog x limit')
  (hfar : (t.superChain root).1 = (s.superChain root).1 ++ far)
include hs ht hfar

theorem Serves.findField_truncate (name : String) :
    (s.findField root name).1 =
      (t.findField root name).1.filter (·.className ∈ (s.superChain root).1) := by
  rw [hs.findField_eq_findSome?, ht.findField_eq_findSome?, hfar]
  exact findSome?_eq_filter (fun _ _ => className_of_find?_fields) _ far

theorem Serves.findMethod_truncate (name : String) :
    (s.findMethod root name).1 =
      (t.findMethod root name).1.filter (·.className ∈ (s.superChain root).1) := by
  rw [hs.findMethod_eq_findSome?, ht.findMethod_eq_findSome?, hfar]
  exact findSome?_eq_filter (fun _ _ h => (className_of_find?_methods h).1) _ far

theorem Serves.fieldTypes_truncate (name : String) :
    (s.fieldTypes root name).1 =
      if (t.findField root name).1.any (·.className ∈ (s.superChain root).1)
      then (t.fieldTypes root name).1 else none := by
  rw [hs.fieldTypes, ht.fieldTypes, hs.findField_truncate ht hfar]
  cases (t.findField root name).1 with
  | none => rfl
  | some f => by_cases hf : f.className ∈ (s.superChain root).1 <;> simp [Option.filter, hf]

theorem Serves.collect_truncate (matcher : Matcher) (asField : Bool) :
    (s.collect root matcher asField #[]).1.entries.toList =
      (t.collect root matcher asField #[]).1.entries.toList.filter
        (·.owner ∈ (s.superChain root).1) := by
  have hdisjoint : (s.superChain root).1.Disjoint far := by
    have hnodup := ht.nodup_superChain root
    rw [hfar, List.nodup_append] at hnodup
    exact fun c hc hc' => hnodup.2.2 c hc c hc' rfl
  rw [hs.collect_eq_add, ht.collect_eq_add, Harvest.toList_entries_add, Harvest.toList_entries_add,
    hfar, List.nil_append, List.nil_append, List.filter_append, List.filter_append,
    ← Candidate.listing_eq_filter (fun _ _ => Index.className_of_mem_fields) hdisjoint,
    ← Candidate.listing_eq_filter (fun _ _ h => (Index.className_of_mem_statics h).1) hdisjoint,
    ← Candidate.listing_eq_filter (fun _ _ h => (Index.className_of_mem_methods h).1) hdisjoint]

end

theorem levelBound_some_le (k : UInt32) : levelBound (some k) ≤ levelBound none := by
  have hk := k.toNat_lt_size
  show max 1 k.toNat ≤ UInt32.size - 1
  have hsize : UInt32.size = 4294967296 := rfl
  omega

/-- A chain does not depend on the number of the project. -/
theorem superChain_project (c : Catalog) (x : Context) (limit : Option UInt32) (root : Root)
    (project : Nat) :
    ((start c ⟨project, x.scope⟩ limit).superChain root).1 =
      ((start c x limit).superChain root).1 := by
  obtain ⟨w, e, h⟩ := exists_ascends c x.scope (levelBound limit)
    (fun _ => (none : Option Unit)) root.name [] root
  have hproject := answers_superChain (x := ⟨project, x.scope⟩) h _ (serves_start _ _ _)
  rw [hproject.1, (answers_superChain h _ (serves_start _ _ _)).1]

/-- The same for completions, in whatever project. -/
theorem entries_complete?_truncate {ix : Index} {x : Context} {k : UInt32} {root : Root}
    {far : List String}
    (hfar : ((start ix.catalog x none).superChain root).1 =
      ((start ix.catalog x (some k)).superChain root).1 ++ far)
    (r : CompletionRequest) :
    let request (limit : Option UInt32) := { r with scope := x.scope, limit }
    ((request (some k)).complete? ix.catalog root).map (·.1.entries) =
      ((request none).complete? ix.catalog root).map fun done =>
        done.1.entries.filter (·.owner ∈ ((start ix.catalog x (some k)).superChain root).1) := by
  intro request
  have hfilter : (fun done : Completion × Session =>
      done.1.entries.filter (·.owner ∈ ((start ix.catalog x (some k)).superChain root).1)) =
      List.filter (·.owner ∈ ((start ix.catalog x (some k)).superChain root).1) ∘
        fun done => done.1.entries := rfl
  rw [hfilter, ← Option.map_map, CompletionRequest.entries_complete?,
    CompletionRequest.entries_complete?]
  cases r.project with
  | none => rfl
  | some project =>
    have hproject (limit : Option UInt32) := superChain_project ix.catalog x limit root project
    have hcollect := Serves.collect_truncate (serves_start _ ⟨project, x.scope⟩ (some k))
      (serves_start _ ⟨project, x.scope⟩ none) (by rw [hproject, hproject]; exact hfar)
      r.matcher r.asField
    rw [hproject] at hcollect
    exact congrArg some hcollect

/-- A limit only cuts. With `m` the limit, or 1 for a limit of 0, the chain is the first `m` classes
of what it is without; what is looked for is found if its class is one of these; a completion offers
the candidates of these classes. A chain of more than `m` classes is reported as too deep, another
as it is without the limit, which is not at all or as a cycle. -/
theorem limit_truncates (ix : Index) (hsize : ix.classCount < UInt32.size - 1) (x : Context)
    (k : UInt32) (root : Root) :
    let m := max 1 k.toNat
    let limited := start ix.catalog x (some k)
    let free := start ix.catalog x none
    let chain := (free.superChain root).1
    let near := chain.take m
    (limited.superChain root).1 = near ∧
      (∀ name, (limited.findField root name).1 =
        (free.findField root name).1.filter (·.className ∈ near)) ∧
      (∀ name, (limited.findMethod root name).1 =
        (free.findMethod root name).1.filter (·.className ∈ near)) ∧
      (∀ name, (limited.fieldTypes root name).1 =
        if (free.findField root name).1.any (·.className ∈ near)
        then (free.fieldTypes root name).1 else none) ∧
      (∀ matcher asField, (limited.collect root matcher asField #[]).1.entries.toList =
        (free.collect root matcher asField #[]).1.entries.toList.filter (·.owner ∈ near)) ∧
      (∀ r : CompletionRequest,
        let request (limit : Option UInt32) := { r with scope := x.scope, limit }
        ((request (some k)).complete? ix.catalog root).map (·.1.entries) =
          ((request none).complete? ix.catalog root).map fun c =>
            c.1.entries.filter (·.owner ∈ near)) ∧
      (limited.superChain root).2.diagnostics =
        (if m < chain.length then
          [{ code := 1002
             className := root.name
             message := Text.fill Diagnostic.tooDeepTemplate [root.name, toString m] }]
        else (free.superChain root).2.diagnostics) ∧
      match ix.catalog.ancestor? x.scope root chain.length with
      | none => (free.superChain root).2.diagnostics = []
      | some p => p.name ∈ chain ∧
        (free.superChain root).2.diagnostics =
          [{ code := 1001
             className := root.name
             message := Text.fill Diagnostic.cyclicTemplate [root.name, p.name] }] := by
  intro m limited free chain near
  obtain ⟨w, e, h, hend⟩ := exists_ascends_unlimited hsize x.scope root
  obtain ⟨w', e', h', hlevels, hfaults⟩ := h.truncate (levelBound_some_le k) (Nat.zero_le _)
  have hs : limited.Serves ix.catalog x (some k) := serves_start _ _ _
  have ht : free.Serves ix.catalog x none := serves_start _ _ _
  obtain ⟨hchain, -, hafter⟩ := answers_superChain h free ht
  obtain ⟨hchain', -, hafter'⟩ := answers_superChain h' limited hs
  have hnames : w.levels.map Level.name = chain := hchain.symm
  have hlength : w.levels.length = chain.length := by rw [← hnames, List.length_map]
  have hdiagnostics : (free.superChain root).2.diagnostics = Diagnostic.merge [] e.faults :=
    hafter.diagnostics
  have hnear : (limited.superChain root).1 = near := by
    rw [show (limited.superChain root).1 = _ from hchain', hlevels, List.map_take, hnames]
    rfl
  have hfar : chain = (limited.superChain root).1 ++ chain.drop m := by
    rw [hnear]
    exact (List.take_append_drop m chain).symm
  rw [hdiagnostics, ← hnear]
  refine ⟨rfl, hs.findField_truncate ht hfar, hs.findMethod_truncate ht hfar,
    hs.fieldTypes_truncate ht hfar, hs.collect_truncate ht hfar,
    entries_complete?_truncate hfar, ?_, ?_⟩
  · have hlong : e'.faults = if m < chain.length then [.tooDeep root.name m] else e.faults := by
      rw [hfaults, List.length_nil, Nat.zero_add, hlength]
      rfl
    rw [show (limited.superChain root).2.diagnostics = _ from hafter'.diagnostics, hlong]
    split <;> rfl
  · rw [hlength, hnames] at hend
    split at hend
    · rw [hend]
      rfl
    · rw [hend.2]
      exact ⟨hend.1, rfl⟩

/-- Below a loop of `B` and `A` there is room for `B` and its field under a limit of 2, which cuts
`A` off. A limit of 0 leaves the root alone, and one of 3 has room for the loop, which is told as
one. -/
theorem limited_loop :
    let root : Root := .node (.declared "C" (some "B"))
    let limited (k : UInt32) := start Index.loop.catalog ⟨0, .project⟩ (some k)
    let request : CompletionRequest :=
      { project := some 0, typed := "", scope := .project, limit := some 2 }
    Index.loop.classCount < UInt32.size - 1 ∧
      ((limited 0).superChain root).1 = ["C"] ∧ ((limited 0).findField root "x").1 = none ∧
      ((limited 2).superChain root).1 = ["C", "B"] ∧
      ((limited 2).findField root "x").1 = some { name := "x", className := "B" } ∧
      (request.complete? Index.loop.catalog root).map (fun c => c.1.entries.map (·.owner)) =
        some ["B"] ∧
      ((limited 2).superChain root).2.diagnostics =
        [⟨1002, "C", "Super chain of 'C' exceeds the maximum depth of 2 levels."⟩] ∧
      ((limited 3).superChain root).2.diagnostics =
        [⟨1001, "C", "Super chain of 'C' loops back to 'B'."⟩] := by
  intro root limited request
  have hsize : Index.loop.classCount < UInt32.size - 1 := by decide
  obtain ⟨hroot, hnone, -⟩ := limit_truncates Index.loop hsize ⟨0, .project⟩ 0 root
  obtain ⟨hchain, hfield, -, -, -, hcomplete, hcut, -⟩ :=
    limit_truncates Index.loop hsize ⟨0, .project⟩ 2 root
  obtain ⟨-, -, -, -, -, -, hloop, -⟩ := limit_truncates Index.loop hsize ⟨0, .project⟩ 3 root
  have hentries := congrArg (Option.map (List.map Candidate.owner)) (hcomplete request)
  rw [Option.map_map] at hentries
  exact ⟨hsize, hroot.trans (by decide +kernel), (hnone "x").trans (by decide +kernel),
    hchain.trans (by decide +kernel), (hfield "x").trans (by decide +kernel),
    hentries.trans (by decide +kernel), hcut.trans (by decide +kernel),
    hloop.trans (by decide +kernel)⟩

end Session

end Lineage
