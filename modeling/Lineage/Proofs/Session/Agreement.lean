import Mathlib.Data.ENat.Basic
import Lineage.Proofs.Session.Candidates
import Lineage.Proofs.Session.Member

/-!
# Look-ups and completions

A look-up goes up the chain until a class declares the name; a completion lists what all classes
declare. They agree: the first candidate of a name is the field that is found, and of the first
instance and the first static method the one that stands nearer is the method that is found, the
instance method where both stand on one class.
-/

namespace Lineage

/-- The first candidate of this kind with this name. -/
def Candidate.first (es : List Candidate) (kind : MemberKind) (name : String) : Option Candidate :=
  es.find? fun e => e.kind == kind && e.name == name

/-- The position of an owner in a chain. Where there is none, it is above every class. -/
def rank (chain : List String) (owner : Option String) : ℕ∞ :=
  owner.elim ⊤ fun c => chain.idxOf c

theorem rank_cons_self (c : String) (chain : List String) : rank (c :: chain) (some c) = 0 := by
  simp [rank]

theorem rank_cons_of_ne {c : String} {owner : Option String} (h : owner ≠ some c)
    (chain : List String) : rank (c :: chain) owner = rank chain owner + 1 := by
  cases owner with
  | none => simp [rank]
  | some d =>
    have hd : c ≠ d := fun heq => h (heq ▸ rfl)
    simp [rank, List.idxOf_cons_ne chain hd]

section
variable {β : Type} {f g : String → Option β} {owner : β → String}
  (hf : ∀ c m, f c = some m → owner m = c) (hg : ∀ c m, g c = some m → owner m = c)

include hf in
theorem owner_ne_of_eq_none {c : String} (hc : f c = none) (chain : List String) :
    (chain.findSome? f).map owner ≠ some c := by
  intro h
  obtain ⟨m, hm, rfl⟩ := Option.map_eq_some_iff.mp h
  obtain ⟨d, -, hd⟩ := List.exists_of_findSome?_eq_some hm
  rw [hf d m hd, hd] at hc
  cases hc

include hf hg in
/-- The nearer of two answers counts, and on one class the first. -/
theorem findSome?_or_eq_ite (chain : List String) :
    (chain.findSome? fun c => (f c).or (g c)) =
      if rank chain ((chain.findSome? f).map owner) ≤ rank chain ((chain.findSome? g).map owner)
      then chain.findSome? f else chain.findSome? g := by
  induction chain with
  | nil => rfl
  | cons c chain ih =>
    -- The class at the foot decides unless it has neither answer.
    cases hfc : f c with
    | some a => simp [hfc, hf c a hfc, rank_cons_self]
    | none =>
      have hrank := rank_cons_of_ne (owner_ne_of_eq_none hf hfc chain) chain
      cases hgc : g c with
      | some b =>
        have hlt : ¬ rank (c :: chain) ((chain.findSome? f).map owner) ≤ 0 := by
          rw [hrank]
          simp
        simp only [List.findSome?_cons, hfc, hgc, Option.none_or, Option.map_some, hg c b hgc,
          rank_cons_self, if_neg hlt]
      | none =>
        have hrank' := rank_cons_of_ne (owner_ne_of_eq_none hg hgc chain) chain
        simp only [List.findSome?_cons, hfc, hgc, Option.or_none, ih, hrank, hrank',
          ENat.add_le_add_iff_right ENat.one_ne_top]

end

/-! ## First candidates -/

theorem Candidate.first_append (es fs : List Candidate) (kind : MemberKind) (name : String) :
    first (es ++ fs) kind name = (first es kind name).or (first fs kind name) :=
  List.find?_append

/-- Everything in a group is of one kind, and its first candidate of a name is that of the first
class that declares the name. -/
theorem Candidate.first_listing {α : Type} (declared : String → List α) (candidate : α → Candidate)
    {k : MemberKind} (hk : ∀ c, ∀ m ∈ declared c, (candidate m).kind = k) (chain : List String)
    (kind : MemberKind) (name : String) :
    first (listing .all chain declared candidate) kind name =
      if k = kind then
        (chain.findSome? fun c => (declared c).find? fun m => (candidate m).name == name).map
          candidate
      else none := by
  have hclass : ∀ c,
      ((declared c).map candidate).find? (fun e => e.kind == kind && e.name == name) =
      if k = kind then
        ((declared c).find? fun m => (candidate m).name == name).map candidate
      else none := by
    intro c
    rw [List.find?_map, ← List.head?_filter, ← List.head?_filter]
    have hfilter : (declared c).filter ((fun e => e.kind == kind && e.name == name) ∘ candidate) =
        (declared c).filter fun m => k == kind && (candidate m).name == name :=
      List.filter_congr fun m hm => by simp [hk c m hm]
    rw [hfilter]
    by_cases h : k = kind <;> simp [h]
  simp only [first, listing, Matcher.accepts, List.filter_true, List.find?_flatMap, hclass]
  split
  · rw [List.map_findSome?]
    rfl
  · simp

section
variable {ix : Index} {x : Scope} {c : String} {m : MethodDef} (root : String) (asField : Bool)

theorem kind_candidate_of_mem_statics (h : m ∈ ix.statics c x) :
    (m.candidate root asField).kind = .staticMethod :=
  if_pos (Index.className_of_mem_statics h).2

theorem kind_candidate_of_mem_methods (h : m ∈ ix.methods c x) :
    (m.candidate root asField).kind = .method := by
  simp [MethodDef.candidate, (Index.className_of_mem_methods h).2]

end

namespace Session

section
variable {ix : Index} {x : Context} {limit : Option UInt32} {s : Session}

/-- The first candidate of each kind, from the declarations on the chain. -/
theorem Serves.first_collect (hs : s.Serves ix.catalog x limit) (root : Root) (asField : Bool)
    (kind : MemberKind) (name : String) :
    Candidate.first (s.collect root .all asField #[]).1.entries.toList kind name =
      let chain := (s.superChain root).1
      match kind with
      | .field =>
        (chain.findSome? fun c => (ix.fields c x.scope).find? (·.name == name)).map
          (·.candidate root.name)
      | .staticMethod =>
        (chain.findSome? fun c => (ix.statics c x.scope).find? (·.name == name)).map
          (·.candidate root.name asField)
      | .method =>
        (chain.findSome? fun c => (ix.methods c x.scope).find? (·.name == name)).map
          (·.candidate root.name asField) := by
  rw [hs.collect_eq_add, Harvest.toList_entries_add, List.nil_append, Candidate.first_append,
    Candidate.first_append,
    Candidate.first_listing (ix.fields · x.scope) (·.candidate root.name) fun _ _ _ => rfl,
    Candidate.first_listing (ix.statics · x.scope) (·.candidate root.name asField)
      fun _ _ hm => kind_candidate_of_mem_statics root.name asField hm,
    Candidate.first_listing (ix.methods · x.scope) (·.candidate root.name asField)
      fun _ _ hm => kind_candidate_of_mem_methods root.name asField hm]
  cases kind <;> simp [FieldDef.candidate, MethodDef.candidate]

/-- Instance methods and static ones are looked up together, and the nearer is found. -/
theorem Serves.findMethod_eq_ite (hs : s.Serves ix.catalog x limit) (root : Root) (name : String) :
    let chain := (s.superChain root).1
    let instanceMethod := chain.findSome? fun c => (ix.methods c x.scope).find? (·.name == name)
    let staticMethod := chain.findSome? fun c => (ix.statics c x.scope).find? (·.name == name)
    (s.findMethod root name).1 =
      if rank chain (instanceMethod.map MethodDef.className) ≤
          rank chain (staticMethod.map MethodDef.className)
      then instanceMethod else staticMethod := by
  intro chain instanceMethod staticMethod
  have hm : ∀ c m, (ix.methods c x.scope).find? (·.name == name) = some m → m.className = c :=
    fun c m h => (Index.className_of_mem_methods (List.mem_of_find?_eq_some h)).1
  have hst : ∀ c m, (ix.statics c x.scope).find? (·.name == name) = some m → m.className = c :=
    fun c m h => (Index.className_of_mem_statics (List.mem_of_find?_eq_some h)).1
  rw [hs.findMethod_eq_findSome?, ← findSome?_or_eq_ite hm hst]

/-- The chain of a root is the same in all sessions on one index. -/
theorem Serves.superChain_eq {t : Session} (hs : s.Serves ix.catalog x limit)
    (ht : t.Serves ix.catalog x limit) (root : Root) :
    (s.superChain root).1 = (t.superChain root).1 := by
  obtain ⟨w, e, h⟩ := Lineage.exists_ascends ix.catalog x.scope (levelBound limit)
    (fun _ => (none : Option Unit)) root.name [] root
  rw [(answers_superChain h s hs).1, (answers_superChain h t ht).1]

end

/-- What is found is the first that is listed: for fields as it stands, and for methods the first
instance or the first static method, whichever stands nearer to the root. The look-ups and the
completion may be made in sessions with different pasts. -/
theorem find_eq_first_collected (ix : Index) (x : Context) (limit : Option UInt32)
    (ops ops' : List Operation) (root : Root) (name : String) (asField : Bool) :
    let s := (start ix.catalog x limit).performAll ops
    let t := (start ix.catalog x limit).performAll ops'
    let entries := (t.collect root .all asField #[]).1.entries.toList
    let first (kind : MemberKind) := Candidate.first entries kind name
    let position (kind : MemberKind) :=
      rank (s.superChain root).1 ((first kind).map Candidate.owner)
    (s.findField root name).1.map FieldDef.className = (first .field).map Candidate.owner ∧
      ((s.findMethod root name).1 = none ↔ first .method = none ∧ first .staticMethod = none) ∧
      ∀ m, (s.findMethod root name).1 = some m →
        let kind : MemberKind := if m.isStatic then .staticMethod else .method
        (m.isStatic = true ↔ position .staticMethod < position .method) ∧
          (first kind).map Candidate.owner = some m.className ∧
          (asField = false → (first kind).bind Candidate.insertion = some (.call m.params)) := by
  intro s t entries first position
  have hs : s.Serves ix.catalog x limit := (serves_start _ _ _).performAll ops
  have ht : t.Serves ix.catalog x limit := (serves_start _ _ _).performAll ops'
  let chain := (s.superChain root).1
  let instanceMethod := chain.findSome? fun c => (ix.methods c x.scope).find? (·.name == name)
  let staticMethod := chain.findSome? fun c => (ix.statics c x.scope).find? (·.name == name)
  have hfirst (kind : MemberKind) := ht.first_collect root asField kind name
  rw [ht.superChain_eq hs root] at hfirst
  have hmethod : first .method = instanceMethod.map (·.candidate root.name asField) :=
    hfirst .method
  have hstatic : first .staticMethod = staticMethod.map (·.candidate root.name asField) :=
    hfirst .staticMethod
  have hfound : (s.findMethod root name).1 =
      if position .method ≤ position .staticMethod then instanceMethod else staticMethod := by
    simp only [position, hmethod, hstatic, Option.map_map]
    exact hs.findMethod_eq_ite root name
  refine ⟨?_, ?_, fun m hm => ?_⟩
  · rw [show first .field = _ from hfirst .field, hs.findField, Option.map_map]
    simp only [Index.catalog, Index.field?_eq_find?]
    rfl
  · simp only [hmethod, hstatic, Option.map_eq_none_iff, instanceMethod, staticMethod,
      hs.findMethod, Index.catalog, Index.method?_eq_find?, Index.static?_eq_find?,
      List.findSome?_eq_none_iff, Option.or_eq_none_iff, imp_and, forall_and]
    rfl
  · rw [hfound] at hm
    split at hm
    · next hle =>
      have hkind : m.isStatic = false := by
        obtain ⟨c, -, hc⟩ := List.exists_of_findSome?_eq_some hm
        exact (Index.className_of_mem_methods (List.mem_of_find?_eq_some hc)).2
      simp [hkind, hmethod, hm, MethodDef.candidate, hle]
    · next hlt =>
      have hkind : m.isStatic = true := by
        obtain ⟨c, -, hc⟩ := List.exists_of_findSome?_eq_some hm
        exact (Index.className_of_mem_statics (List.mem_of_find?_eq_some hc)).2
      simp [hkind, hstatic, hm, MethodDef.candidate, not_le.mp hlt]

end Session

end Lineage
