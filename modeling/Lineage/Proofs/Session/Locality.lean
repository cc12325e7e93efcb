import Mathlib.Data.List.Dedup
import Lineage.Proofs.Index
import Lineage.Proofs.Index.Declarations
import Lineage.Proofs.Session.Accounts
import Lineage.Proofs.Session.Chain

/-!
# What a query reads

A walk asks for the parents that its levels name and for no other class, whether it ends at the top
of its chain, in a loop or at its limit; and a query asks for members of the classes at its levels.
A parent that is found is the next level unless the walk ends there. So a query reads the classes of
its chain and the one that the last of these names (`footprint`), and what an index holds under any
other name does not show.
-/

namespace Lineage

/-! ## The classes that a walk asks for -/

section
variable {β : Type} {c c' : Catalog} {x : Scope} {bound : Nat}

theorem Catalog.parent?_congr {r : Root}
    (h : ∀ name ∈ r.superName.toList, c'.class? name x = c.class? name x) :
    c'.parent? x r = c.parent? x r := by
  unfold parent?
  cases hn : r.superName with
  | none => rfl
  | some name =>
    have hname : c'.class? name x = c.class? name x := h name (by simp [hn])
    show c'.node? x name = c.node? x name
    rw [node?, node?, hname]

/-- An ascent is one over every catalog that says the same of the classes it asks for, with every
visitor that does the same at its levels. -/
theorem Ascends.congr {visit visit' : Level → Option β} {root : String} {seen : List String}
    {next : Root} {w : Walk β} {e : Effort} (h : Ascends c x bound visit root seen next w e)
    (hclass : ∀ name ∈ e.asked, c'.class? name x = c.class? name x)
    (hvisit : ∀ l ∈ w.levels, visit' l = visit l) :
    Ascends c' x bound visit' root seen next w e := by
  induction h with
  | cycle hmem => exact .cycle hmem
  | tooDeep hmem hfull => exact .tooDeep hmem hfull
  | found hmem hlt hv =>
    have hlevel := hvisit _ List.mem_cons_self
    exact .found hmem hlt (hlevel.trans hv)
  | top hmem hlt hv hp =>
    have hlevel := hvisit _ List.mem_cons_self
    have hparent := Catalog.parent?_congr hclass
    exact .top hmem hlt (hlevel.trans hv) (hparent.trans hp)
  | up hmem hlt hv hp _ ih =>
    have hlevel := hvisit _ List.mem_cons_self
    have hparent := Catalog.parent?_congr fun name hname =>
      hclass name (List.mem_append_left _ hname)
    refine .up hmem hlt (hlevel.trans hv) (hparent.trans hp) (ih (fun name hname => ?_) ?_)
    · exact hclass name (List.mem_append_right _ hname)
    · exact fun l hl => hvisit l (List.mem_cons_of_mem _ hl)

/-- In whatever way a walk ends, it has asked for the parents that its levels name. -/
theorem Ascends.asked_eq {name : String} {seen : List String} {root next : Root} {w : Walk β}
    {e : Effort} (h : Ascends c x bound (fun _ => none) name seen next w e)
    (hn : c.ancestor? x root seen.length = some next) :
    e.asked = (List.range' seen.length w.levels.length).flatMap fun i =>
      ((c.ancestor? x root i).bind Root.superName).toList := by
  induction h with
  | cycle _ => rfl
  | tooDeep _ _ => rfl
  | found _ _ hv => cases hv
  | top _ _ _ _ => simp [hn]
  | @up seen next parent w e _ _ _ hp _ ih =>
    have hlength : (seen ++ [next.name]).length = seen.length + 1 := by simp
    rw [hlength] at ih
    have hasked := ih (by simp [Catalog.ancestor?, hn, hp])
    rw [List.length_cons, List.range'_succ, List.flatMap_cons, ← hasked, hn]
    rfl

end

theorem Harvest.offerAll_congr {α : Type} {chain : List String}
    {declared declared' : String → List α} (h : ∀ name ∈ chain, declared' name = declared name)
    (matcher : Matcher) (candidate : String → Nat → α → Candidate) :
    offerAll matcher chain declared' candidate = offerAll matcher chain declared candidate := by
  funext harvest
  unfold offerAll
  refine List.foldl_ext _ _ _ fun harvest level hlevel => ?_
  rw [h level.1 (List.fst_mem_of_mem_zipIdx hlevel)]

theorem Stats.eq_of_total {s t : Stats} (hhops : s.superHops = t.superHops)
    (hlookups : s.classLookups = t.classLookups)
    (htotal : s.classLookups + s.memoHits = t.classLookups + t.memoHits) : s = t := by
  cases s
  cases t
  simp only [Stats.mk.injEq] at *
  omega

namespace Session

/-- The classes that queries about `root` read: those of its chain, and the parent that the last of
them names. -/
def footprint (c : Catalog) (x : Context) (limit : Option UInt32) (root : Root) : List String :=
  let chain := ((start c x limit).superChain root).1
  chain ++ ((c.ancestor? x.scope root (chain.length - 1)).bind Root.superName).toList

/-- What a query is about. -/
def Operation.root? : Operation → Option Root
  | .resolveClass _
  | .takeDiagnostics => none
  | .superType root
  | .superChain root
  | .walk root _
  | .findField root _
  | .findMethod root _
  | .fieldTypes root _
  | .collect root _ _
  | .collectFields root _
  | .collectStatics root _
  | .collectMethods root _ _ => some root

section
variable {ix : Index} {x : Context} {limit : Option UInt32} {root : Root}

/-- A new session looks each of the classes up once. -/
theorem classLookups_perform {c : Catalog} {op : Operation} {a : Answer} {e : Effort}
    (h : Answers c x limit (·.perform op) a e) :
    ((start c x limit).perform op).2.stats.classLookups = e.asked.dedup.length := by
  have hbooks : ((start c x limit).perform op).2.Accounts _ := accounts_performAll c x limit [op]
  obtain ⟨-, -, hafter⟩ := h _ (serves_start c x limit)
  have hmem : ∀ name, name ∈ ((start c x limit).perform op).2.told ↔ name ∈ e.asked.dedup := by
    intro name
    rw [hbooks.mem_told, hafter.memo, List.mem_dedup]
    simp [start]
  have hperm := (List.perm_ext_iff_of_nodup hbooks.nodup (List.nodup_dedup _)).mpr hmem
  rw [hbooks.lookups, hperm.length_eq]

theorem subset_footprint {w : Walk Unit} {e : Effort}
    (h : Ascends ix.catalog x.scope (levelBound limit) (fun _ => none) root.name [] root w e) :
    w.levels.map Level.name ⊆ footprint ix.catalog x limit root ∧
      e.asked ⊆ footprint ix.catalog x limit root := by
  have hchain : ((start ix.catalog x limit).superChain root).1 = w.levels.map Level.name :=
    (answers_superChain h _ (serves_start _ _ _)).1
  obtain ⟨-, -, hp, -, -, -⟩ := h.halts Catalog.passed_nil rfl
  rw [List.nil_append] at hp
  rw [footprint, hchain]
  refine ⟨List.subset_append_left _ _, fun name hname => ?_⟩
  rw [h.asked_eq rfl] at hname
  obtain ⟨i, hi, hname⟩ := List.mem_flatMap.mp hname
  rw [Option.mem_toList] at hname
  have hlt : i < w.levels.length := by simpa using hi
  -- The parent that a level names is the next level, if there is a next level.
  rcases Nat.lt_or_eq_of_le hlt with hnext | hlast
  · obtain ⟨r, hr, hrn⟩ := hp.ancestor (i := i + 1) (by simpa using hnext)
    rw [Index.name_of_ancestor? hname hr] at hrn
    rw [hrn]
    exact List.mem_append_left _ (List.getElem_mem _)
  · refine List.mem_append_right _ ?_
    have hi : (w.levels.map Level.name).length - 1 = i := by
      rw [List.length_map]
      omega
    rw [hi, Option.mem_toList]
    exact hname

theorem superName_subset_footprint :
    root.superName.toList ⊆ footprint ix.catalog x limit root := by
  obtain ⟨w, e, h⟩ := exists_ascends ix.catalog x.scope (levelBound limit)
    (fun _ => (none : Option Unit)) root.name [] root
  obtain ⟨-, more, -, hasked⟩ := h.exists_cons (levelBound_pos limit)
  have hsuper : root.superName.toList ⊆ e.asked := by
    rw [hasked]
    exact List.subset_append_left _ _
  exact List.Subset.trans hsuper (subset_footprint h).2

section
variable {c' : Catalog}
  (hag : ∀ name ∈ footprint ix.catalog x limit root, ix.catalog.AgreesAt x.scope c' name)
include hag

/-- Over a catalog that agrees on what is read, walks go the same way. -/
theorem exists_ascends_alike {β : Type} (visit visit' : Level → Option β)
    (hvisit : ∀ l, ix.catalog.AgreesAt x.scope c' l.name → visit' l = visit l) :
    ∃ w e, Ascends ix.catalog x.scope (levelBound limit) visit root.name [] root w e ∧
      Ascends c' x.scope (levelBound limit) visit' root.name [] root w e ∧
      ∀ name ∈ w.levels.map Level.name, ix.catalog.AgreesAt x.scope c' name := by
  obtain ⟨w, e, h⟩ := exists_ascends ix.catalog x.scope (levelBound limit)
    (fun _ => (none : Option Unit)) root.name [] root
  -- A visitor that answers leaves a beginning of this.
  obtain ⟨w', e', h', ha⟩ := h.answered visit
  obtain ⟨hlevels, hasked⟩ := subset_footprint h
  have hread : ∀ name ∈ w'.levels.map Level.name, ix.catalog.AgreesAt x.scope c' name :=
    fun name hname => hag name (hlevels (List.map_subset Level.name ha.levels.subset hname))
  refine ⟨w', e', h', h'.congr (fun name hname => ?_) fun l hl => ?_, hread⟩
  · exact (hag name (hasked (ha.asked.subset hname))).class?
  · exact hvisit l (hread _ (List.mem_map_of_mem hl))

/-- A query about the root has one answer and one cost over both catalogs. -/
theorem exists_answers_alike {op : Operation} (hop : op.root? = some root) :
    ∃ a e, Answers ix.catalog x limit (·.perform op) a e ∧
      Answers c' x limit (·.perform op) a e := by
  obtain ⟨w, e, h, h', hread⟩ := exists_ascends_alike hag (fun _ => (none : Option Unit))
    (fun _ => none) fun _ _ => rfl
  have hfields : ∀ name ∈ w.levels.map Level.name,
      c'.fields name x.scope = ix.catalog.fields name x.scope :=
    fun name hname => (hread name hname).fields
  have hstatics : ∀ name ∈ w.levels.map Level.name,
      c'.statics name x.scope = ix.catalog.statics name x.scope :=
    fun name hname => (hread name hname).statics
  have hmethods : ∀ name ∈ w.levels.map Level.name,
      c'.methods name x.scope = ix.catalog.methods name x.scope :=
    fun name hname => (hread name hname).methods
  cases op with
  | resolveClass name => cases hop
  | takeDiagnostics => cases hop
  | superType _ =>
    cases hop
    have hparent := Catalog.parent?_congr fun name hname =>
      (hag name (superName_subset_footprint hname)).class?
    have hanswers : Answers c' x limit (·.parentOf root) (c'.parent? x.scope root) _ :=
      answers_parentOf root
    rw [hparent] at hanswers
    exact ⟨_, _, (answers_parentOf root).map Answer.node, hanswers.map Answer.node⟩
  | superChain _ =>
    cases hop
    exact ⟨_, _, (answers_superChain h).map Answer.chain, (answers_superChain h').map Answer.chain⟩
  | walk _ visit =>
    cases hop
    obtain ⟨w, e, h, h', -⟩ := exists_ascends_alike hag visit visit fun _ _ => rfl
    exact ⟨_, _, (answers_walk h).map fun w => Answer.walk w.levels w.found,
      (answers_walk h').map fun w => Answer.walk w.levels w.found⟩
  | findField _ name =>
    cases hop
    obtain ⟨w, e, h, h', -⟩ := exists_ascends_alike hag
      (fun l => ix.catalog.field? l.name name x.scope) (fun l => c'.field? l.name name x.scope)
      fun _ hl => hl.field? name
    exact ⟨_, _, (answers_findField h).map Answer.field, (answers_findField h').map Answer.field⟩
  | findMethod _ name =>
    cases hop
    obtain ⟨w, e, h, h', -⟩ := exists_ascends_alike hag
      (fun l =>
        (ix.catalog.method? l.name name x.scope).or (ix.catalog.static? l.name name x.scope))
      (fun l => (c'.method? l.name name x.scope).or (c'.static? l.name name x.scope))
      fun _ hl => by rw [hl.method?, hl.static?]
    exact ⟨_, _, (answers_findMethod h).map Answer.method,
      (answers_findMethod h').map Answer.method⟩
  | fieldTypes _ name =>
    cases hop
    obtain ⟨w, e, h, h', -⟩ := exists_ascends_alike hag
      (fun l => (ix.catalog.field? l.name name x.scope).map FieldDef.types)
      (fun l => (c'.field? l.name name x.scope).map FieldDef.types)
      fun _ hl => by rw [hl.field?]
    exact ⟨_, _, (answers_fieldTypes h).map Answer.types, (answers_fieldTypes h').map Answer.types⟩
  | collect _ matcher asField =>
    cases hop
    have hanswers := answers_collect matcher asField #[] h'
    rw [Harvest.offerAll_congr hfields, Harvest.offerAll_congr hstatics,
      Harvest.offerAll_congr hmethods] at hanswers
    exact ⟨_, _, (answers_collect matcher asField #[] h).map Answer.ofHarvest,
      hanswers.map Answer.ofHarvest⟩
  | collectFields _ matcher =>
    cases hop
    have hanswers := answers_collectFields matcher #[] h'
    rw [Harvest.offerAll_congr hfields] at hanswers
    exact ⟨_, _, (answers_collectFields matcher #[] h).map Answer.ofHarvest,
      hanswers.map Answer.ofHarvest⟩
  | collectStatics _ matcher =>
    cases hop
    have hanswers := answers_collectStatics matcher #[] h'
    rw [Harvest.offerAll_congr hstatics] at hanswers
    exact ⟨_, _, (answers_collectStatics matcher #[] h).map Answer.ofHarvest,
      hanswers.map Answer.ofHarvest⟩
  | collectMethods _ matcher asField =>
    cases hop
    have hanswers := answers_collectMethods matcher asField #[] h'
    rw [Harvest.offerAll_congr hmethods] at hanswers
    exact ⟨_, _, (answers_collectMethods matcher asField #[] h).map Answer.ofHarvest,
      hanswers.map Answer.ofHarvest⟩

end

end

/-- Declarations of classes that a query does not read change neither its answer nor what it counts
and reports. -/
theorem perform_unrelated (ix : Index) (x : Context) (limit : Option UInt32) (root : Root)
    (ds : List Declaration) (hds : ∀ d ∈ ds, d.className ∉ footprint ix.catalog x limit root)
    (op : Operation) (hop : op.root? = some root) :
    let s := start ix.catalog x limit
    let t := start (ds.foldl Index.add ix).catalog x limit
    (t.perform op).1 = (s.perform op).1 ∧ (t.perform op).2.stats = (s.perform op).2.stats ∧
      (t.perform op).2.diagnostics = (s.perform op).2.diagnostics := by
  intro s t
  have hag : ∀ name ∈ footprint ix.catalog x limit root,
      ix.catalog.AgreesAt x.scope (ds.foldl Index.add ix).catalog name := by
    intro name hname
    have hentry := Index.entry_foldl_add ix fun d hd hc => hds d hd (hc.symm ▸ hname)
    exact Index.agreesAt_of_entry hentry x.scope
  obtain ⟨a, e, h, h'⟩ := exists_answers_alike hag hop
  obtain ⟨ha, -, hafter⟩ := h s (serves_start _ _ _)
  obtain ⟨ha', -, hafter'⟩ := h' t (serves_start _ _ _)
  refine ⟨ha'.trans ha.symm, Stats.eq_of_total ?_ ?_ ?_, ?_⟩
  · rw [hafter'.superHops, hafter.superHops]
    rfl
  · exact (classLookups_perform h').trans (classLookups_perform h).symm
  · rw [hafter'.lookups, hafter.lookups]
    rfl
  · rw [hafter'.diagnostics, hafter.diagnostics]
    rfl

/-- A class below a loop is not seen from the loop, nor is what it declares. -/
theorem perform_unrelated_loop :
    let root : Root := .node (.declared "A" (some "B"))
    let below : List Declaration := [.record { name := "C", superName := some "A" },
      .field { name := "x", className := "C" }]
    let s := start Index.loop.catalog ⟨0, .project⟩ none
    let t := start (below.foldl Index.add Index.loop).catalog ⟨0, .project⟩ none
    footprint Index.loop.catalog ⟨0, .project⟩ none root = ["A", "B", "A"] ∧
      (∀ d ∈ below, d.className ∉ footprint Index.loop.catalog ⟨0, .project⟩ none root) ∧
      (Operation.collect root .all false).root? = some root ∧
      (t.perform (.collect root .all false)).1 = (s.perform (.collect root .all false)).1 := by
  intro root below s t
  have hread : footprint Index.loop.catalog ⟨0, .project⟩ none root = ["A", "B", "A"] := by
    decide +kernel
  have hbelow : ∀ d ∈ below,
      d.className ∉ footprint Index.loop.catalog ⟨0, .project⟩ none root := by
    rw [hread]
    decide
  obtain ⟨ha, -, -⟩ := perform_unrelated Index.loop ⟨0, .project⟩ none root below hbelow
    (.collect root .all false) rfl
  exact ⟨hread, hbelow, rfl, ha⟩

/-- A parent that is missing is read as well: a chain goes on when it is declared. -/
example :
    let ix := Index.empty.addClass { name := "A", superName := some "B" }
    let root : Root := .node (.declared "A" (some "B"))
    let chain (ix : Index) := ((start ix.catalog ⟨0, .project⟩).superChain root).1
    footprint ix.catalog ⟨0, .project⟩ none root = ["A", "B"] ∧ chain ix = ["A"] ∧
      chain (ix.add (.record { name := "B" })) = ["A", "B"] := by
  decide +kernel

end Session

end Lineage
