import Lineage.Proofs.Json.Arrangement

/-!
# Records without foreign keys

A strict shape refuses a key that names no field, so every entry gives a change. If no field is
required, an object is read exactly if each of its entries is by itself and no key comes twice
(`exists_readObject_iff`), and a part of the record that one field makes is what the entries state
for the key of this field (`Shape.Makes.states`).
-/

namespace Lineage.Json

/-- What the entries state for a key: nothing if no entry has it, else what the value of the entry
means. -/
inductive States {β : Type} (means : Doc → Option β → Prop) (key : String)
    (entries : List (StringLexeme × Doc)) : Option β → Prop
  | missing (h : ∀ e ∈ entries, e.1.read ≠ .ok key) : States means key entries none
  | given {lexeme : StringLexeme} {d : Doc} {v : Option β} (hmem : (lexeme, d) ∈ entries)
    (hkey : lexeme.read = .ok key) (hmeans : means d v) : States means key entries v

namespace Shape

variable {α : Type} {shape : Shape α} {es : List (StringLexeme × Doc)} {a : α}

theorem Gives.read {e : StringLexeme × Doc} {gift : Gift α} (h : shape.Gives e (some gift)) :
    e.1.read = .ok gift.name := by
  cases h with
  | known hkey _ _ => exact hkey

/-- All entries give their changes. -/
def GivesAll (shape : Shape α) (es : List (StringLexeme × Doc)) (gifts : List (Gift α)) : Prop :=
  List.Forall₂ (fun e gift => shape.Gives e (some gift)) es gifts

theorem GivesAll.map_read {gifts : List (Gift α)} (h : shape.GivesAll es gifts) :
    es.map (fun e => e.1.read) = (names gifts).map .ok := by
  induction h with
  | nil => rfl
  | cons he _ ih => rw [List.map_cons, names_cons, List.map_cons, he.read, ih]

theorem GivesAll.nodup_iff {gifts : List (Gift α)} (h : shape.GivesAll es gifts) :
    (names gifts).Nodup ↔ es.Pairwise fun e e' => e.1.read ≠ e'.1.read := by
  have hok : Function.Injective (Except.ok : String → Except ReadError String) :=
    fun _ _ => Except.ok.inj
  rw [← List.nodup_map_iff hok, ← h.map_read]
  exact List.pairwise_map

theorem GivesAll.exists_gift {gifts : List (Gift α)} (h : shape.GivesAll es gifts)
    {e : StringLexeme × Doc} (hmem : e ∈ es) : ∃ gift, shape.Gives e (some gift) := by
  induction h with
  | nil => cases hmem
  | cons he _ ih =>
    rcases List.mem_cons.mp hmem with rfl | hmem
    · exact ⟨_, he⟩
    · exact ih hmem

theorem GivesAll.exists_entry {gifts : List (Gift α)} (h : shape.GivesAll es gifts)
    {gift : Gift α} (hmem : gift ∈ gifts) : ∃ e ∈ es, shape.Gives e (some gift) := by
  induction h with
  | nil => cases hmem
  | @cons e _ es _ he _ ih =>
    rcases List.mem_cons.mp hmem with rfl | hmem
    · exact ⟨e, List.mem_cons_self, he⟩
    · obtain ⟨e', he', hgives⟩ := ih hmem
      exact ⟨e', List.mem_cons_of_mem e he', hgives⟩

theorem exists_givesAll (h : ∀ e ∈ es, ∃ gift, shape.Gives e (some gift)) :
    ∃ gifts, shape.GivesAll es gifts := by
  induction es with
  | nil => exact ⟨[], .nil⟩
  | cons e es ih =>
    obtain ⟨⟨gift, he⟩, hes⟩ := List.forall_mem_cons.mp h
    obtain ⟨gifts, hgifts⟩ := ih hes
    exact ⟨gift :: gifts, .cons he hgifts⟩

theorem givesAll_of_strict (hstrict : shape.isStrict = true) {gifts : List (Option (Gift α))}
    (h : List.Forall₂ shape.Gives es gifts) : shape.GivesAll es gifts.reduceOption := by
  induction h with
  | nil => exact .nil
  | @cons e gift es gifts he _ ih =>
    cases he with
    | known hkey hslot hread =>
      rw [List.reduceOption_cons_of_some]
      exact .cons (.known hkey hslot hread) ih
    | foreign _ _ hloose _ => exact absurd hstrict (by rw [hloose]; decide)

theorem missing?_eq_none (h : ∀ slot ∈ shape.slots, slot.isRequired = false)
    (seen : List String) : shape.missing? seen = none := by
  refine List.find?_eq_none.mpr fun slot hslot => ?_
  rw [h slot hslot, Bool.false_and]
  decide

section
variable (hstrict : shape.isStrict = true)
  (hoptional : ∀ slot ∈ shape.slots, slot.isRequired = false)
include hstrict hoptional

theorem readObject_eq_ok_iff_of_strict :
    shape.readObject es .closed = .ok a ↔
      ∃ gifts, shape.GivesAll es gifts ∧ (es.Pairwise fun e e' => e.1.read ≠ e'.1.read) ∧
        a = putAll gifts shape.blank := by
  rw [readObject_eq_ok_iff]
  constructor
  · rintro ⟨gifts, hgifts, hnodup, -, rfl⟩
    have hall := givesAll_of_strict hstrict hgifts
    exact ⟨_, hall, hall.nodup_iff.mp hnodup, rfl⟩
  · rintro ⟨gifts, hall, hpairwise, rfl⟩
    have hreduced : (gifts.map some).reduceOption = gifts := by
      rw [List.reduceOption, List.filterMap_map]
      exact List.filterMap_some
    refine ⟨gifts.map some, List.forall₂_map_right_iff.mpr hall, ?_⟩
    rw [hreduced]
    exact ⟨hall.nodup_iff.mpr hpairwise, missing?_eq_none hoptional _, rfl⟩

theorem exists_readObject_iff :
    (∃ a, shape.readObject es .closed = .ok a) ↔
      (∀ e ∈ es, ∃ gift, shape.Gives e (some gift)) ∧
        es.Pairwise fun e e' => e.1.read ≠ e'.1.read := by
  constructor
  · rintro ⟨a, h⟩
    obtain ⟨gifts, hall, hpairwise, -⟩ := (readObject_eq_ok_iff_of_strict hstrict hoptional).mp h
    exact ⟨fun e he => hall.exists_gift he, hpairwise⟩
  · rintro ⟨hgives, hpairwise⟩
    obtain ⟨gifts, hall⟩ := exists_givesAll hgives
    exact ⟨_, (readObject_eq_ok_iff_of_strict hstrict hoptional).mpr ⟨gifts, hall, hpairwise, rfl⟩⟩

end

/-! ## Parts of a record -/

/-- The field of this key makes this part of the record and no other field changes it; `means`
relates the values that the field may have to what the part is then. -/
structure Makes {β : Type} (shape : Shape α) (key : String) (means : Doc → Option β → Prop)
    (part : α → Option β) : Prop where
  blank : part shape.blank = none
  own : ∀ {e gift}, shape.Gives e (some gift) → gift.name = key →
    ∃ v, means e.2 v ∧ ∀ a, part (gift.put a) = v
  other : ∀ {e gift}, shape.Gives e (some gift) → gift.name ≠ key →
    ∀ a, part (gift.put a) = part a

section
variable {β : Type} {key : String} {means : Doc → Option β → Prop} {part : α → Option β}
  (hmakes : shape.Makes key means part)
include hmakes

theorem Makes.part_putAll {gifts : List (Gift α)} (h : key ∉ names gifts)
    (hgives : ∀ gift ∈ gifts, ∃ e, shape.Gives e (some gift)) (a : α) :
    part (putAll gifts a) = part a := by
  induction gifts generalizing a with
  | nil => rfl
  | cons gift gifts ih =>
    rw [names_cons, List.mem_cons, not_or] at h
    obtain ⟨⟨e, he⟩, hgives⟩ := List.forall_mem_cons.mp hgives
    exact (ih h.2 hgives _).trans (hmakes.other he (Ne.symm h.1) a)

theorem Makes.states_putAll {gifts : List (Gift α)} (hall : shape.GivesAll es gifts)
    (hnodup : (names gifts).Nodup) : States means key es (part (putAll gifts shape.blank)) := by
  by_cases hkey : key ∈ names gifts
  · -- The changes behind the one of this field are of other fields.
    obtain ⟨gift, hgift, hname⟩ := List.mem_map.mp hkey
    obtain ⟨⟨lexeme, d⟩, hentry, hgives⟩ := hall.exists_entry hgift
    obtain ⟨v, hmeans, hput⟩ := hmakes.own hgives hname
    obtain ⟨before, after, rfl⟩ := List.append_of_mem hgift
    rw [names, List.map_append, List.map_cons, hname] at hnodup
    have hafter : key ∉ names after := (List.nodup_cons.mp hnodup.of_append_right).1
    have hpart : part (putAll (before ++ gift :: after) shape.blank) = v := by
      rw [putAll, List.foldl_append, List.foldl_cons]
      refine (hmakes.part_putAll hafter (fun g hg => ?_) _).trans (hput _)
      obtain ⟨e, -, he⟩ := hall.exists_entry (List.mem_append_right before (.tail gift hg))
      exact ⟨e, he⟩
    rw [hpart]
    exact .given hentry (hname ▸ hgives.read) hmeans
  · rw [hmakes.part_putAll hkey (fun g hg => (hall.exists_entry hg).imp fun _ => And.right),
      hmakes.blank]
    refine .missing fun e he hread => hkey ?_
    have hmem : .ok key ∈ (names gifts).map (Except.ok : String → Except ReadError String) := by
      rw [← hall.map_read, ← hread]
      exact List.mem_map_of_mem he
    obtain ⟨name, hname, heq⟩ := List.mem_map.mp hmem
    exact Except.ok.inj heq ▸ hname

/-- What a strict record has of a field is what the entries state for it. -/
theorem Makes.states (hstrict : shape.isStrict = true)
    (hoptional : ∀ slot ∈ shape.slots, slot.isRequired = false)
    (h : shape.readObject es .closed = .ok a) : States means key es (part a) := by
  obtain ⟨gifts, hall, hpairwise, rfl⟩ := (readObject_eq_ok_iff_of_strict hstrict hoptional).mp h
  exact hmakes.states_putAll hall (hall.nodup_iff.mpr hpairwise)

end

end Shape

end Lineage.Json
