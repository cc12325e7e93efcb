import Mathlib.Data.List.Forall2
import Mathlib.Data.List.Nodup
import Mathlib.Data.List.Pairwise
import Mathlib.Data.List.Perm.Basic
import Mathlib.Data.List.ReduceOption
import Lineage.Json.Shape
import Lineage.Proofs.Basic
import Lineage.Proofs.Json.Sound

/-!
# Records in any arrangement

The entries of an object are read one by one, and what an entry gives depends on nothing but itself:
the change that the value of a field makes to the record, or nothing if its key is foreign
(`Shape.Gives`). An object is read if no field comes twice and no required one is missing, and then
the record has all changes (`readObject_eq_ok_iff`). So the order of the entries does not count if
the changes of different fields commute, and neither do foreign keys.
-/

namespace Lineage.Json

theorem Doc.skipItems_of_skip {ds : List Doc} (h : ∀ d ∈ ds, d.skip = .ok ()) :
    skipItems ds = .ok () := by
  induction ds with
  | nil => rfl
  | cons d ds ih =>
    obtain ⟨hd, hds⟩ := List.forall_mem_cons.mp h
    rw [skipItems, hd]
    exact ih hds

theorem Doc.skipEntries_of_skip {es : List (StringLexeme × Doc)}
    (hkeys : ∀ e ∈ es, e.1.ending = .closed) (h : ∀ e ∈ es, e.2.skip = .ok ()) :
    skipEntries es = .ok () := by
  induction es with
  | nil => rfl
  | cons e es ih =>
    obtain ⟨key, d⟩ := e
    obtain ⟨hkey, hkeys⟩ := List.forall_mem_cons.mp hkeys
    obtain ⟨hd, hes⟩ := List.forall_mem_cons.mp h
    rw [skipEntries, show key.ending = .closed from hkey, show d.skip = .ok () from hd]
    exact ih hkeys hes

/-- A value in which nothing goes wrong can be skipped, however deep it is. -/
theorem Doc.Sound.skip {d : Doc} (h : d.Sound) : d.skip = .ok () := by
  induction h with
  | null | bool | number | string => rfl
  | array _ ih =>
    rw [Doc.skip, skipItems_of_skip ih]
    rfl
  | object hkeys _ ih =>
    rw [Doc.skip, skipEntries_of_skip hkeys ih]
    rfl

/-! ## What an entry gives -/

/-- A change of a record by the value of a field. -/
structure Gift (α : Type) where
  /-- The key of the field. -/
  name : String
  put : α → α

namespace Shape

variable {α : Type} {shape : Shape α}

/-- What the entry changes; nothing if it is passed over. -/
inductive Gives (shape : Shape α) : StringLexeme × Doc → Option (Gift α) → Prop
  | known {key : StringLexeme} {d : Doc} {name : String} {slot : Slot α} {put : α → α}
    (hkey : key.read = .ok name) (hslot : shape.slot? name = some slot)
    (hread : slot.read d = .ok put) : Gives shape (key, d) (some ⟨name, put⟩)
  | foreign {key : StringLexeme} {d : Doc} {name : String} (hkey : key.read = .ok name)
    (hslot : shape.slot? name = none) (hstrict : shape.isStrict = false)
    (hskip : d.skip = .ok ()) : Gives shape (key, d) none

def names (gifts : List (Gift α)) : List String := gifts.map Gift.name

theorem names_cons (gift : Gift α) (gifts : List (Gift α)) :
    names (gift :: gifts) = gift.name :: names gifts := rfl

/-- All changes, one after the other. -/
def putAll (gifts : List (Gift α)) (a : α) : α := gifts.foldl (fun a gift => gift.put a) a

section
variable {e : StringLexeme × Doc} {es : List (StringLexeme × Doc)} {seen seen' : List String}
  {a a' : α}

theorem readEntries_cons_of_known {name : String} {put : α → α}
    (h : shape.Gives e (some ⟨name, put⟩)) (hseen : name ∉ seen) :
    shape.readEntries seen a (e :: es) = shape.readEntries (name :: seen) (put a) es := by
  cases h with
  | known hkey hslot hread =>
    simp only [readEntries, hkey, hslot, hread, if_neg hseen, bind, Except.bind]

theorem readEntries_cons_of_foreign (h : shape.Gives e none) :
    shape.readEntries seen a (e :: es) = shape.readEntries seen a es := by
  cases h with
  | foreign hkey hslot hstrict hskip =>
    simp only [readEntries, hkey, hslot, hstrict, hskip, bind, Except.bind, Bool.false_eq_true,
      if_false]

theorem gives_of_readEntries {r : List String × α}
    (h : shape.readEntries seen a (e :: es) = .ok r) :
    (∃ name put, shape.Gives e (some ⟨name, put⟩) ∧ name ∉ seen) ∨ shape.Gives e none := by
  obtain ⟨key, d⟩ := e
  obtain ⟨name, hkey, h⟩ := bind_eq_ok_iff.mp h
  cases hslot : shape.slot? name with
  | some slot =>
    simp only [hslot] at h
    split at h
    · cases h
    next hseen =>
      obtain ⟨put, hread, -⟩ := bind_eq_ok_iff.mp h
      exact .inl ⟨name, put, .known hkey hslot hread, hseen⟩
  | none =>
    simp only [hslot] at h
    split at h
    · cases h
    next hstrict =>
      obtain ⟨_, hskip, -⟩ := bind_eq_ok_iff.mp h
      exact .inr (.foreign hkey hslot (by simpa using hstrict) hskip)

/-- The entries are read if each gives something by itself and no field comes twice. -/
theorem readEntries_eq_ok_iff :
    shape.readEntries seen a es = .ok (seen', a') ↔
      ∃ gifts, List.Forall₂ shape.Gives es gifts ∧ (names gifts.reduceOption).Nodup ∧
        (∀ name ∈ names gifts.reduceOption, name ∉ seen) ∧
        seen' = (names gifts.reduceOption).reverse ++ seen ∧
        a' = putAll gifts.reduceOption a := by
  induction es generalizing seen a with
  | nil =>
    constructor
    · rintro ⟨⟩
      exact ⟨[], .nil, List.nodup_nil, nofun, rfl, rfl⟩
    · rintro ⟨_, ⟨⟩, -, -, rfl, rfl⟩
      rfl
  | cons e es ih =>
    constructor
    · intro h
      rcases gives_of_readEntries h with ⟨name, put, he, hseen⟩ | he
      · rw [readEntries_cons_of_known he hseen] at h
        obtain ⟨gifts, hgifts, hnodup, hnew, rfl, rfl⟩ := ih.mp h
        have hname : name ∉ names gifts.reduceOption := fun hmem =>
          hnew name hmem List.mem_cons_self
        refine ⟨some ⟨name, put⟩ :: gifts, .cons he hgifts, ?_⟩
        rw [List.reduceOption_cons_of_some]
        refine ⟨List.nodup_cons.mpr ⟨hname, hnodup⟩, ?_, ?_, rfl⟩
        · exact List.forall_mem_cons.mpr
            ⟨hseen, fun n hn hmem => hnew n hn (List.mem_cons_of_mem _ hmem)⟩
        · rw [names_cons, List.reverse_cons, List.append_assoc, List.singleton_append]
      · rw [readEntries_cons_of_foreign he] at h
        obtain ⟨gifts, hgifts, h⟩ := ih.mp h
        exact ⟨none :: gifts, .cons he hgifts, h⟩
    · rintro ⟨gifts, hall, hnodup, hnew, rfl, rfl⟩
      rcases hall with _ | ⟨he, hgifts⟩
      next gift gifts =>
      cases gift with
      | none =>
        rw [readEntries_cons_of_foreign he]
        exact ih.mpr ⟨gifts, hgifts, hnodup, hnew, rfl, rfl⟩
      | some gift =>
        rw [List.reduceOption_cons_of_some] at hnodup hnew ⊢
        obtain ⟨hname, hnodup⟩ := List.nodup_cons.mp hnodup
        obtain ⟨hseen, hnew⟩ := List.forall_mem_cons.mp hnew
        rw [readEntries_cons_of_known he hseen]
        refine ih.mpr ⟨gifts, hgifts, hnodup, ?_, ?_, rfl⟩
        · intro n hn hmem
          rcases List.mem_cons.mp hmem with rfl | hmem
          · exact hname hn
          · exact hnew n hn hmem
        · rw [List.reduceOption_cons_of_some, names_cons, List.reverse_cons, List.append_assoc,
            List.singleton_append]

end

/-! ## Objects -/

theorem missing?_congr {seen seen' : List String} (h : seen.Perm seen') :
    shape.missing? seen = shape.missing? seen' := by
  simp only [missing?, h.contains_eq]

theorem readObject_eq_ok_iff {es : List (StringLexeme × Doc)} {a : α} :
    shape.readObject es .closed = .ok a ↔
      ∃ gifts, List.Forall₂ shape.Gives es gifts ∧ (names gifts.reduceOption).Nodup ∧
        shape.missing? (names gifts.reduceOption) = none ∧
        a = putAll gifts.reduceOption shape.blank := by
  unfold readObject
  constructor
  · intro h
    obtain ⟨⟨seen, a'⟩, hread, h⟩ := bind_eq_ok_iff.mp h
    obtain ⟨_, _, h⟩ := bind_eq_ok_iff.mp h
    obtain ⟨gifts, hgifts, hnodup, -, rfl, rfl⟩ := readEntries_eq_ok_iff.mp hread
    rw [List.append_nil, missing?_congr (List.reverse_perm _)] at h
    split at h
    · cases h
    next hmissing =>
      cases h
      exact ⟨gifts, hgifts, hnodup, hmissing, rfl⟩
  · rintro ⟨gifts, hgifts, hnodup, hmissing, rfl⟩
    have hread : shape.readEntries [] shape.blank es =
        .ok ((names gifts.reduceOption).reverse ++ [], putAll gifts.reduceOption shape.blank) :=
      readEntries_eq_ok_iff.mpr ⟨gifts, hgifts, hnodup, fun _ _ => List.not_mem_nil, rfl, rfl⟩
    refine bind_eq_ok_iff.mpr ⟨_, hread, bind_eq_ok_iff.mpr ⟨(), rfl, ?_⟩⟩
    rw [List.append_nil, missing?_congr (List.reverse_perm _), hmissing]
    rfl

end Shape

/-- The values of the two fields change the record independently of each other. -/
def Slot.Apart {α : Type} (s t : Slot α) : Prop :=
  ∀ d e f g, s.read d = .ok f → t.read e = .ok g → ∀ a, f (g a) = g (f a)

instance {α : Type} : Std.Symm (@Slot.Apart α) :=
  ⟨fun _ _ h d e f g hf hg a => (h e d g f hg hf a).symm⟩

/-- Two fields stay apart if it does not matter which of them is set first. -/
theorem Slot.apart_of_put {α β γ : Type} {key key' : String} {isRequired isRequired' : Bool}
    {read : Reader β} {read' : Reader γ} {put : β → α → α} {put' : γ → α → α}
    (h : ∀ b c a, put b (put' c a) = put' c (put b a)) :
    Slot.Apart ⟨key, isRequired, fun d => (read d).map put⟩
      ⟨key', isRequired', fun d => (read' d).map put'⟩ := by
  intro d e f g hf hg
  obtain ⟨b, -, rfl⟩ := map_eq_ok_iff.mp hf
  obtain ⟨c, -, rfl⟩ := map_eq_ok_iff.mp hg
  exact h b c

namespace Shape

variable {α : Type} {shape : Shape α}

/-- The fields can be set in any order. -/
def Commutes (shape : Shape α) : Prop := shape.slots.Pairwise Slot.Apart

theorem mem_of_slot? {name : String} {slot : Slot α} (h : shape.slot? name = some slot) :
    slot ∈ shape.slots ∧ slot.key = name :=
  ⟨List.mem_of_find?_eq_some h, by simpa using List.find?_some h⟩

theorem Gives.commute {e e' : StringLexeme × Doc} {gift gift' : Gift α}
    (hshape : shape.Commutes) (h : shape.Gives e (some gift)) (h' : shape.Gives e' (some gift'))
    (hne : gift.name ≠ gift'.name) (a : α) :
    gift.put (gift'.put a) = gift'.put (gift.put a) := by
  obtain @⟨_, _, _, slot, _, -, hslot, hread⟩ := h
  obtain @⟨_, _, _, slot', _, -, hslot', hread'⟩ := h'
  obtain ⟨hmem, hkey⟩ := mem_of_slot? hslot
  obtain ⟨hmem', hkey'⟩ := mem_of_slot? hslot'
  have hslots : slot ≠ slot' := by
    rintro rfl
    exact hne (hkey.symm.trans hkey')
  exact hshape.forall hmem hmem' hslots _ _ _ _ hread hread' a

theorem exists_gives {entries : List (StringLexeme × Doc)} {gifts : List (Option (Gift α))}
    (h : List.Forall₂ shape.Gives entries gifts) {gift : Option (Gift α)}
    (hgift : gift ∈ gifts) : ∃ e, shape.Gives e gift := by
  induction h with
  | nil => cases hgift
  | cons he _ ih =>
    rcases List.mem_cons.mp hgift with rfl | hgift
    · exact ⟨_, he⟩
    · exact ih hgift

theorem putAll_perm {gifts gifts' : List (Gift α)} (hperm : gifts.Perm gifts')
    (hnodup : (names gifts).Nodup)
    (hcommute : ∀ g ∈ gifts, ∀ g' ∈ gifts, g.name ≠ g'.name →
      ∀ a, g.put (g'.put a) = g'.put (g.put a)) (a : α) :
    putAll gifts a = putAll gifts' a := by
  refine hperm.foldl_eq' (fun g hg g' hg' a => ?_) a
  by_cases hname : g.name = g'.name
  · rw [List.inj_on_of_nodup_map hnodup hg hg' hname]
  · exact (hcommute g hg g' hg' hname a).symm

/-! ## Another arrangement -/

/-- The key has a text, and this is the name of no field. -/
def Foreign (shape : Shape α) (key : StringLexeme) : Prop :=
  ∃ name, key.read = .ok name ∧ name ∉ shape.keys

theorem Foreign.gives {key : StringLexeme} {d : Doc} (h : shape.Foreign key)
    (hstrict : shape.isStrict = false) (hskip : d.skip = .ok ()) : shape.Gives (key, d) none := by
  obtain ⟨name, hkey, hname⟩ := h
  refine .foreign hkey (List.find?_eq_none.mpr fun slot hslot => ?_) hstrict hskip
  rw [beq_iff_eq]
  rintro rfl
  exact hname (List.mem_map_of_mem hslot)

/-- The second object has the entries of the first one, each as `kept` relates them, in any order
and with any entries of foreign keys among them. -/
inductive Rearranged (shape : Shape α) (kept : StringLexeme × Doc → StringLexeme × Doc → Prop) :
    Doc → Doc → Prop
  | intro {entries old new entries' : List (StringLexeme × Doc)}
    (hold : List.Forall₂ kept entries old) (hnew : ∀ e ∈ new, shape.Foreign e.1)
    (hperm : entries'.Perm (old ++ new)) :
    Rearranged shape kept (.object entries .closed) (.object entries' .closed)

section
variable {kept : StringLexeme × Doc → StringLexeme × Doc → Prop}
  (hkept : ∀ {e e' gift}, kept e e' → e'.2.Sound → shape.Gives e gift → shape.Gives e' gift)
include hkept

theorem forall₂_gives_of_kept {entries old : List (StringLexeme × Doc)}
    {gifts : List (Option (Gift α))} (h : List.Forall₂ kept entries old)
    (hsound : ∀ e ∈ old, e.2.Sound) (hgifts : List.Forall₂ shape.Gives entries gifts) :
    List.Forall₂ shape.Gives old gifts := by
  induction h generalizing gifts with
  | nil => exact hgifts
  | cons he _ ih =>
    obtain ⟨hd, hds⟩ := List.forall_mem_cons.mp hsound
    cases hgifts with
    | cons hgift hgifts => exact .cons (hkept he hd hgift) (ih hds hgifts)

/-- A record is read the same from another arrangement of its object. -/
theorem Rearranged.read {d d' : Doc} {a : α} (h : shape.Rearranged kept d d')
    (hshape : shape.Commutes) (hstrict : shape.isStrict = false) (hsound : d'.Sound)
    (hread : shape.read d = .ok a) : shape.read d' = .ok a := by
  obtain @⟨entries, old, new, entries', hold, hnew, hperm⟩ := h
  obtain ⟨gifts, hgifts, hnodup, hmissing, rfl⟩ := readObject_eq_ok_iff.mp hread
  have hvalues : ∀ e ∈ old ++ new, e.2.Sound := by
    cases hsound with
    | object _ hvalues => exact fun e he => hvalues e (hperm.mem_iff.mpr he)
  obtain ⟨hsoundOld, hsoundNew⟩ := List.forall_mem_append.mp hvalues
  have hforeign : List.Forall₂ shape.Gives new (new.map fun _ => none) := by
    rw [List.forall₂_map_right_iff, List.forall₂_same]
    exact fun e he => (hnew e he).gives hstrict (hsoundNew e he).skip
  -- The changes come in the order of the entries, with nothing where a key is foreign.
  obtain ⟨gifts', hgifts', hgiftsPerm⟩ := List.perm_comp_forall₂ hperm
    (List.rel_append (forall₂_gives_of_kept hkept hold hsoundOld hgifts) hforeign)
  have hreduced : gifts'.reduceOption.Perm gifts.reduceOption := by
    have hall : gifts'.reduceOption.Perm
        (gifts ++ new.map fun _ => none : List (Option (Gift α))).reduceOption :=
      hgiftsPerm.filterMap id
    rwa [List.reduceOption_append, List.map_const', List.reduceOption_replicate_none,
      List.append_nil] at hall
  have hnames : (names gifts'.reduceOption).Perm (names gifts.reduceOption) :=
    hreduced.map Gift.name
  refine readObject_eq_ok_iff.mpr ⟨gifts', hgifts', hnames.nodup_iff.mpr hnodup, ?_, ?_⟩
  · rwa [missing?_congr hnames]
  · -- No field comes twice, so two changes are of different fields and commute.
    refine putAll_perm hreduced.symm hnodup (fun g hg g' hg' hne => ?_) shape.blank
    obtain ⟨e, he⟩ := exists_gives hgifts (List.reduceOption_mem_iff.mp hg)
    obtain ⟨e', he'⟩ := exists_gives hgifts (List.reduceOption_mem_iff.mp hg')
    exact he.commute hshape he' hne

end

/-- The records of the list are rearranged, each by itself. -/
inductive RearrangedList (shape : Shape α) : Doc → Doc → Prop
  | intro {ds ds' : List Doc} (h : List.Forall₂ (shape.Rearranged (· = ·)) ds ds') :
    RearrangedList shape (.array ds .closed) (.array ds' .closed)

section
variable (hshape : shape.Commutes) (hstrict : shape.isStrict = false)
include hshape hstrict

theorem mapM_read_of_rearranged {ds ds' : List Doc} {as : List α}
    (h : List.Forall₂ (shape.Rearranged (· = ·)) ds ds') (hsound : ∀ d ∈ ds', d.Sound)
    (hread : ds.mapM shape.read = .ok as) : ds'.mapM shape.read = .ok as := by
  induction h generalizing as with
  | nil => exact hread
  | @cons d d' ds ds' hd _ ih =>
    obtain ⟨hsound, hsounds⟩ := List.forall_mem_cons.mp hsound
    rw [List.mapM_cons] at hread ⊢
    obtain ⟨a, hfirst, hread⟩ := bind_eq_ok_iff.mp hread
    obtain ⟨as', hrest, hread⟩ := bind_eq_ok_iff.mp hread
    have hfirst' : shape.read d' = .ok a :=
      hd.read (fun {e e' gift} heq _ h => heq ▸ h) hshape hstrict hsound hfirst
    exact bind_eq_ok_iff.mpr ⟨a, hfirst', bind_eq_ok_iff.mpr ⟨as', ih hsounds hrest, hread⟩⟩

theorem RearrangedList.read {d d' : Doc} {as : List α} (h : shape.RearrangedList d d')
    (hsound : d'.Sound) (hread : Reader.list shape.read d = .ok as) :
    Reader.list shape.read d' = .ok as := by
  obtain @⟨ds, ds', h⟩ := h
  cases hsound with
  | array hsound =>
    obtain ⟨as', hitems, hend⟩ := bind_eq_ok_iff.mp hread
    exact bind_eq_ok_iff.mpr ⟨as', mapM_read_of_rearranged hshape hstrict h hsound hitems, hend⟩

end

end Shape

end Lineage.Json
