import Mathlib.Data.List.Flatten
import Lineage.Proofs.Session.Candidates
import Lineage.Proofs.Session.Member

/-!
# Widening the scope

A request that sees libraries sees the project as well. A class record that libraries alone have
ends a chain of the project, and a member that they alone have is missing from a level; so with
libraries in view a chain can only become longer and a level can only become fuller. Nothing that
was there moves, and what is found instead of it stands nearer to the root.
-/

namespace Lineage

/-- Where all parents are kept, a walk goes at least as far, with the same answer if it had one and
the same fault if it had one. -/
theorem Ascends.widen {β : Type} {c c' : Catalog} {x x' : Scope} {bound : Nat}
    {visit : Level → Option β} {root : String} {seen : List String} {next : Root} {w : Walk β}
    {e : Effort} (hparent : ∀ r p, c.parent? x r = some p → c'.parent? x' r = some p)
    (h : Ascends c x bound visit root seen next w e) :
    ∃ w' e', Ascends c' x' bound visit root seen next w' e' ∧ w.levels <+: w'.levels ∧
      (∀ a, w.found = some a → w'.found = some a) ∧ e.faults ⊆ e'.faults := by
  induction h with
  | cycle hmem => exact ⟨_, _, .cycle hmem, List.prefix_rfl, fun _ => id, List.Subset.refl _⟩
  | tooDeep hmem hfull =>
    exact ⟨_, _, .tooDeep hmem hfull, List.prefix_rfl, fun _ => id, List.Subset.refl _⟩
  | found hmem hlt hv =>
    exact ⟨_, _, .found hmem hlt hv, List.prefix_rfl, fun _ => id, List.Subset.refl _⟩
  | @top seen next hmem hlt hv _ =>
    -- The chain may go on where it ended before.
    cases hp : c'.parent? x' next with
    | none =>
      exact ⟨_, _, .top hmem hlt hv hp, List.prefix_rfl, fun _ => nofun, List.nil_subset _⟩
    | some parent =>
      obtain ⟨w', e', h'⟩ := exists_ascends c' x' bound visit root (seen ++ [next.name])
        (.node parent)
      exact ⟨_, _, .up hmem hlt hv hp h', List.prefix_append [_] _, fun _ => nofun,
        List.nil_subset _⟩
  | @up seen next parent w e hmem hlt hv hp _ ih =>
    obtain ⟨w', e', h', hlevels, hfound, hfaults⟩ := ih
    exact ⟨_, _, .up hmem hlt hv (hparent next parent hp) h',
      (List.prefix_cons_inj _).mpr hlevels, hfound, by simpa using hfaults⟩

theorem Candidate.listing_sublist {α : Type} {chain chain' : List String}
    {declared declared' : String → List α} (hchain : chain <+: chain')
    (hdeclared : ∀ c, (declared c).Sublist (declared' c)) (matcher : Matcher)
    (candidate : α → Candidate) :
    (listing matcher chain declared candidate).Sublist
      (listing matcher chain' declared' candidate) := by
  have hlevels : (listing matcher chain declared candidate).Sublist
      (listing matcher chain declared' candidate) :=
    List.Sublist.flatMap_right chain fun c _ => ((hdeclared c).map candidate).filter _
  exact hlevels.trans (hchain.sublist.flatMap _)

/-- What is found on a longer chain with fuller levels stands no farther from the root. -/
theorem exists_nearer {α : Type} {own own' : String → Option α} {owner : α → String}
    (hown : ∀ c a, own c = some a → owner a = c) (hown' : ∀ c a, own' c = some a → owner a = c)
    (hmore : ∀ c, (own c).isSome = true → (own' c).isSome = true) {chain chain' : List String}
    (hchain : chain <+: chain') {a : α} (ha : chain.findSome? own = some a) :
    ∃ b, ∃ i j : Nat, chain'.findSome? own' = some b ∧ chain[i]? = some (owner a) ∧
      chain'[j]? = some (owner b) ∧ j ≤ i := by
  obtain ⟨below, c, above, rfl, hc, -⟩ := List.findSome?_eq_some_iff.mp ha
  obtain ⟨more, rfl⟩ := hchain
  have hfoot : (below ++ c :: above)[below.length]? = some (owner a) := by simp [hown c a hc]
  cases hb : below.findSome? own' with
  | some b =>
    have hfound : ((below ++ c :: above) ++ more).findSome? own' = some b := by simp [hb]
    obtain ⟨below', d, between, rfl, hd, -⟩ := List.findSome?_eq_some_iff.mp hb
    exact ⟨b, _, below'.length, hfound, hfoot, by simp [hown' d b hd], by simp⟩
  | none =>
    obtain ⟨b, hb'⟩ := Option.isSome_iff_exists.mp (hmore c (by simp [hc]))
    exact ⟨b, _, below.length, by simp [hb, hb'], hfoot, by simp [hown' c b hb'], Nat.le_refl _⟩

/-! ## Hiding libraries -/

namespace Index

section
variable {ix : Index} {x : Scope} {c : String}

theorem class?_widen {r : ClassRecord} (h : ix.class? c x = some r) :
    ix.class? c .projectAndLibraries = some r := by
  obtain ⟨h, -⟩ := Option.filter_eq_some_iff.mp h
  rw [class?, h]
  rfl

theorem fields_sublist : (ix.fields c x).Sublist (ix.fields c .projectAndLibraries) := by
  simp [fields]

theorem methods_sublist : (ix.methods c x).Sublist (ix.methods c .projectAndLibraries) := by
  simp [methods]

theorem statics_sublist : (ix.statics c x).Sublist (ix.statics c .projectAndLibraries) := by
  simp [statics]

theorem parent?_widen {r : Root} {p : TypeNode} (h : ix.catalog.parent? x r = some p) :
    ix.catalog.parent? .projectAndLibraries r = some p := by
  obtain ⟨name, hname, hp⟩ := Option.bind_eq_some_iff.mp h
  obtain ⟨record, hrecord, rfl⟩ := Option.map_eq_some_iff.mp hp
  rw [Catalog.parent?, hname, Option.bind_some, Catalog.node?]
  exact Option.map_eq_some_iff.mpr ⟨record, class?_widen hrecord, rfl⟩

end

end Index

namespace Session

/-- With libraries in view nothing of the project is lost. Its chain is a beginning of the longer
one and keeps its fault, a visitor that had an answer has the same, the candidates are among the
others in the same order and with the same standing, and where a member was found, one is found
that stands no farther from the root. -/
theorem widening_adds (ix : Index) (project : Nat) (limit : Option UInt32) (root : Root)
    (matcher : Matcher) (asField : Bool) :
    let narrow := start ix.catalog ⟨project, .project⟩ limit
    let wide := start ix.catalog ⟨project, .projectAndLibraries⟩ limit
    let chain := (narrow.superChain root).1
    let chain' := (wide.superChain root).1
    chain <+: chain' ∧
      (narrow.superChain root).2.diagnostics ⊆ (wide.superChain root).2.diagnostics ∧
      (∀ (β : Type) (visit : Level → Option β),
        (narrow.walk root visit).1.levels <+: (wide.walk root visit).1.levels ∧
        (∀ a, (narrow.walk root visit).1.found = some a →
          (wide.walk root visit).1.found = some a) ∧
        (narrow.walk root visit).2.diagnostics ⊆ (wide.walk root visit).2.diagnostics) ∧
      (narrow.collect root matcher asField #[]).1.entries.toList.Sublist
        (wide.collect root matcher asField #[]).1.entries.toList ∧
      (∀ name f, (narrow.findField root name).1 = some f →
        ∃ g, ∃ i j : Nat, (wide.findField root name).1 = some g ∧ chain[i]? = some f.className ∧
          chain'[j]? = some g.className ∧ j ≤ i) ∧
      ∀ name m, (narrow.findMethod root name).1 = some m →
        ∃ n, ∃ i j : Nat, (wide.findMethod root name).1 = some n ∧ chain[i]? = some m.className ∧
          chain'[j]? = some n.className ∧ j ≤ i := by
  intro narrow wide chain chain'
  have hnarrow : narrow.Serves ix.catalog ⟨project, .project⟩ limit := serves_start _ _ _
  have hwide : wide.Serves ix.catalog ⟨project, .projectAndLibraries⟩ limit := serves_start _ _ _
  have hwalk : ∀ (β : Type) (visit : Level → Option β),
      (narrow.walk root visit).1.levels <+: (wide.walk root visit).1.levels ∧
      (∀ a, (narrow.walk root visit).1.found = some a →
        (wide.walk root visit).1.found = some a) ∧
      (narrow.walk root visit).2.diagnostics ⊆ (wide.walk root visit).2.diagnostics := by
    intro β visit
    obtain ⟨w, e, h⟩ := exists_ascends ix.catalog .project (levelBound limit) visit root.name []
      root
    obtain ⟨w', e', h', hlevels, hfound, hfaults⟩ := h.widen fun _ _ => Index.parent?_widen
    obtain ⟨hw, -, he⟩ := answers_walk h narrow hnarrow
    obtain ⟨hw', -, he'⟩ := answers_walk h' wide hwide
    rw [hw, hw', he.diagnostics, he'.diagnostics]
    refine ⟨hlevels, hfound, fun d hd => ?_⟩
    rw [Diagnostic.mem_merge] at hd ⊢
    exact hd.imp id fun hd => hfaults hd
  have hchain : chain <+: chain' := (hwalk Unit fun _ => none).1.map Level.name
  refine ⟨hchain, (hwalk Unit fun _ => none).2.2, hwalk, ?_, fun name f hf => ?_,
    fun name m hm => ?_⟩
  · rw [hnarrow.collect_eq_add, hwide.collect_eq_add, Harvest.toList_entries_add,
      Harvest.toList_entries_add]
    refine (List.Sublist.refl _).append (((?_ : List.Sublist _ _).append ?_).append ?_)
    · exact Candidate.listing_sublist hchain (fun _ => Index.fields_sublist) _ _
    · exact Candidate.listing_sublist hchain (fun _ => Index.statics_sublist) _ _
    · exact Candidate.listing_sublist hchain (fun _ => Index.methods_sublist) _ _
  · rw [hnarrow.findField_eq_findSome?] at hf
    rw [hwide.findField_eq_findSome?]
    exact exists_nearer (fun _ _ => className_of_find?_fields)
      (fun _ _ => className_of_find?_fields) (fun _ => Index.fields_sublist.find?_isSome) hchain hf
  · rw [hnarrow.findMethod_eq_findSome?] at hm
    rw [hwide.findMethod_eq_findSome?]
    refine exists_nearer (fun _ _ h => (className_of_find?_methods h).1)
      (fun _ _ h => (className_of_find?_methods h).1) (fun c h => ?_) hchain hm
    rw [Option.isSome_or, Bool.or_eq_true] at h ⊢
    exact h.imp Index.methods_sublist.find?_isSome Index.statics_sublist.find?_isSome

end Session

end Lineage
