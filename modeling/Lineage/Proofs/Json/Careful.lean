import Lineage.Proofs.Json.Arrangement
import Lineage.Proofs.Json.Exact

/-!
# Readers that look at everything

A reader is careful if it reads sound documents only. All readers here are: what they do not read
they skip, and skipping meets every fault too. So a text that is read is valid JSON
(`Reader.Careful.exists_written`).
-/

namespace Lineage.Json

theorem ok_of_noFault {fault : Option Fault} {u : Unit} (h : noFault fault = .ok u) :
    fault = none := by
  cases fault with
  | none => rfl
  | some fault => cases h

theorem ArrayEnd.closed_of_fault? {e : ArrayEnd} (h : e.fault? = none) : e = .closed := by
  cases e <;> first | rfl | cases h

theorem ArrayEnd.closed_of_skipFault? {e : ArrayEnd} (h : e.skipFault? = none) : e = .closed := by
  cases e <;> first | rfl | cases h

theorem ObjectEnd.closed_of_fault? {e : ObjectEnd} (h : e.fault? = none) : e = .closed := by
  cases e <;> first | rfl | cases h

theorem ObjectEnd.closed_of_skipFault? {e : ObjectEnd} (h : e.skipFault? = none) :
    e = .closed := by
  cases e <;> first | rfl | cases h

theorem StringEnd.closed_of_fault? {e : StringEnd} (h : e.fault? = none) : e = .closed := by
  cases e <;> first | rfl | cases h

/-- A text is read of a closed string only. -/
theorem closed_of_decodeUnits {ending : StringEnd} {done cs : List Char} {us : List StringUnit}
    (h : decodeUnits ending done us = .ok cs) : ending = .closed := by
  fun_induction decodeUnits ending done us with
  | case2 done hend => exact StringEnd.closed_of_fault? hend
  | case3 done c us ih => exact ih h
  | case7 done n us hlow hhigh m hm ih => exact ih h
  | case9 done n us hlow hhigh ih => exact ih h
  | _ => cases h

theorem StringLexeme.closed_of_read {s : StringLexeme} {text : String} (h : s.read = .ok text) :
    s.ending = .closed := by
  rw [read, StringLexeme.text] at h
  cases hdecode : decodeUnits s.ending [] s.units with
  | error _ =>
    rw [hdecode] at h
    cases h
  | ok cs => exact closed_of_decodeUnits hdecode

mutual

theorem Doc.sound_of_skip : ∀ (d : Doc), d.skip = .ok () → d.Sound
  | .null, _ => .null
  | .bool b, _ => .bool b
  | .number n, _ => .number n
  | .string ⟨us, ending⟩, h => by
    cases (StringEnd.closed_of_fault? (ok_of_noFault h) : ending = .closed)
    exact .string us
  | .array items ending, h => by
    obtain ⟨_, hitems, hend⟩ := bind_eq_ok_iff.mp h
    cases ArrayEnd.closed_of_skipFault? (ok_of_noFault hend)
    exact .array (Doc.sound_of_skipItems items hitems)
  | .object entries ending, h => by
    obtain ⟨_, hentries, hend⟩ := bind_eq_ok_iff.mp h
    cases ObjectEnd.closed_of_skipFault? (ok_of_noFault hend)
    exact .object (fun e he => (Doc.sound_of_skipEntries entries hentries e he).1)
      (fun e he => (Doc.sound_of_skipEntries entries hentries e he).2)
  | .absent, h => nomatch h
  | .garbled t, h => nomatch h
  | .noColon atEnd, h => nomatch h

theorem Doc.sound_of_skipItems : ∀ (ds : List Doc), Doc.skipItems ds = .ok () → ∀ d ∈ ds, d.Sound
  | [], _ => nofun
  | d :: ds, h => by
    obtain ⟨_, hd, hds⟩ := bind_eq_ok_iff.mp h
    exact List.forall_mem_cons.mpr ⟨d.sound_of_skip hd, Doc.sound_of_skipItems ds hds⟩

theorem Doc.sound_of_skipEntries : ∀ (es : List (StringLexeme × Doc)),
    Doc.skipEntries es = .ok () → ∀ e ∈ es, e.1.ending = .closed ∧ e.2.Sound
  | [], _ => nofun
  | (key, d) :: es, h => by
    obtain ⟨_, hkey, h⟩ := bind_eq_ok_iff.mp h
    obtain ⟨_, hd, hes⟩ := bind_eq_ok_iff.mp h
    exact List.forall_mem_cons.mpr
      ⟨⟨StringEnd.closed_of_fault? (ok_of_noFault hkey), d.sound_of_skip hd⟩,
        Doc.sound_of_skipEntries es hes⟩

end

/-! ## Readers -/

/-- The reader reads sound documents only. -/
def Reader.Careful {α : Type} (read : Reader α) : Prop := ∀ d a, read d = .ok a → d.Sound

theorem mismatch_ne_ok {α : Type} {expected : String} {d : Doc} {a : α} :
    mismatch expected d ≠ .ok a := by
  intro h
  obtain ⟨found, -, h⟩ := bind_eq_ok_iff.mp h
  cases h

theorem Doc.sound_string {s : StringLexeme} (h : s.ending = .closed) : (Doc.string s).Sound := by
  obtain ⟨us, ending⟩ := s
  cases (show ending = .closed from h)
  exact .string us

namespace Reader

theorem careful_text (expected : String) : Careful (text expected) := by
  intro d a h
  cases d with
  | string s => exact Doc.sound_string (StringLexeme.closed_of_read h)
  | _ => exact absurd h mismatch_ne_ok

theorem careful_boolean : Careful boolean := by
  intro d a h
  cases d with
  | bool b => exact .bool b
  | _ => exact absurd h mismatch_ne_ok

theorem careful_unit : Careful unit := by
  intro d a h
  cases d with
  | null => exact .null
  | _ => exact absurd h mismatch_ne_ok

section
variable {α : Type} {read : Reader α}

theorem Careful.map {β : Type} (hread : Careful read) (f : α → β) :
    Careful fun d => (read d).map f := by
  intro d b h
  obtain ⟨a, h, -⟩ := map_eq_ok_iff.mp h
  exact hread d a h

theorem Careful.optional (hread : Careful read) : Careful (optional read) := by
  intro d a h
  unfold Reader.optional at h
  split at h
  · exact .null
  · cases h
  · exact hread.map some _ _ h

theorem Careful.mapM (hread : Careful read) {ds : List Doc} {as : List α}
    (h : ds.mapM read = .ok as) : ∀ d ∈ ds, d.Sound := by
  induction ds generalizing as with
  | nil => nofun
  | cons d ds ih =>
    rw [List.mapM_cons] at h
    obtain ⟨a, hd, h⟩ := bind_eq_ok_iff.mp h
    obtain ⟨as', hds, -⟩ := bind_eq_ok_iff.mp h
    exact List.forall_mem_cons.mpr ⟨hread d a hd, ih hds⟩

theorem Careful.items (hread : Careful read) (expected : String) :
    Careful (items expected read) := by
  intro d as h
  cases d with
  | array ds ending =>
    obtain ⟨values, hvalues, h⟩ := bind_eq_ok_iff.mp h
    obtain ⟨_, hend, -⟩ := bind_eq_ok_iff.mp h
    cases ArrayEnd.closed_of_fault? (ok_of_noFault hend)
    exact .array (hread.mapM hvalues)
  | _ => exact absurd h mismatch_ne_ok

theorem eq_of_afterOnlyEntry {others : List (StringLexeme × Doc)} {ending : ObjectEnd}
    (h : afterOnlyEntry others ending = none) : others = [] ∧ ending = .closed := by
  unfold afterOnlyEntry at h
  split at h
  · exact ⟨rfl, rfl⟩
  · cases h
  · cases h

theorem careful_oneOf (known : List (String × α)) : Careful (oneOf known) := by
  intro d a h
  unfold oneOf at h
  split at h
  next s =>
    obtain ⟨name, hname, -⟩ := bind_eq_ok_iff.mp h
    exact Doc.sound_string (StringLexeme.closed_of_read hname)
  next key d others ending =>
    obtain ⟨name, hkey, h⟩ := bind_eq_ok_iff.mp h
    obtain ⟨a, -, h⟩ := bind_eq_ok_iff.mp h
    obtain ⟨_, hunit, h⟩ := bind_eq_ok_iff.mp h
    obtain ⟨_, hend, -⟩ := bind_eq_ok_iff.mp h
    obtain ⟨rfl, rfl⟩ := eq_of_afterOnlyEntry (ok_of_noFault hend)
    exact .object (List.forall_mem_singleton.mpr (StringLexeme.closed_of_read hkey))
      (List.forall_mem_singleton.mpr (careful_unit d _ hunit))
  all_goals cases h

end

end Reader

/-! ## Records -/

/-- The value of the field is sound if it is read. -/
def Slot.Careful {α : Type} (slot : Slot α) : Prop := Reader.Careful slot.read

theorem Slot.careful_of_read {α β : Type} {key : String} {isRequired : Bool} {read : Reader β}
    {put : β → α → α} (h : Reader.Careful read) :
    Slot.Careful ⟨key, isRequired, fun d => (read d).map put⟩ := h.map put

namespace Shape

variable {α : Type} {shape : Shape α} (hslots : ∀ slot ∈ shape.slots, slot.Careful)
include hslots

theorem Gives.sound {e : StringLexeme × Doc} {gift : Option (Gift α)}
    (h : shape.Gives e gift) : e.1.ending = .closed ∧ e.2.Sound := by
  cases h with
  | known hkey hslot hread =>
    exact ⟨StringLexeme.closed_of_read hkey, hslots _ (mem_of_slot? hslot).1 _ _ hread⟩
  | foreign hkey _ _ hskip => exact ⟨StringLexeme.closed_of_read hkey, Doc.sound_of_skip _ hskip⟩

theorem sound_of_gives {entries : List (StringLexeme × Doc)}
    {gifts : List (Option (Gift α))} (h : List.Forall₂ shape.Gives entries gifts) :
    ∀ e ∈ entries, e.1.ending = .closed ∧ e.2.Sound := by
  induction h with
  | nil => nofun
  | cons he _ ih => exact List.forall_mem_cons.mpr ⟨he.sound hslots, ih⟩

omit hslots in
theorem closed_of_afterLast? {ending : ArrayEnd} (h : afterLast? ending = none) :
    ending = .closed := by
  cases ending <;> first | rfl | cases h

omit hslots in
theorem sound_of_readItems {ending : ArrayEnd} {index : Nat} {a r : α} {slots : List (Slot α)}
    (hslots : ∀ slot ∈ slots, slot.Careful) {ds : List Doc}
    (h : shape.readItems ending index a slots ds = .ok r) :
    ending = .closed ∧ ∀ d ∈ ds, d.Sound := by
  induction slots generalizing index a ds with
  | nil =>
    cases ds with
    | nil =>
      obtain ⟨_, hend, -⟩ := bind_eq_ok_iff.mp h
      exact ⟨closed_of_afterLast? (ok_of_noFault hend), nofun⟩
    | cons d ds => cases h
  | cons slot slots ih =>
    obtain ⟨hslot, hslots⟩ := List.forall_mem_cons.mp hslots
    cases ds with
    | nil =>
      obtain ⟨_, hend, -⟩ := bind_eq_ok_iff.mp h
      exact ⟨ArrayEnd.closed_of_fault? (ok_of_noFault hend), nofun⟩
    | cons d ds =>
      obtain ⟨put, hd, h⟩ := bind_eq_ok_iff.mp h
      obtain ⟨hend, hds⟩ := ih hslots h
      exact ⟨hend, List.forall_mem_cons.mpr ⟨hslot d put hd, hds⟩⟩

theorem careful : Reader.Careful shape.read := by
  intro d a h
  cases d with
  | object entries ending =>
    obtain ⟨⟨seen, a'⟩, hread, h⟩ := bind_eq_ok_iff.mp h
    obtain ⟨_, hend, -⟩ := bind_eq_ok_iff.mp h
    obtain ⟨gifts, hgifts, -⟩ := readEntries_eq_ok_iff.mp hread
    have hsound := sound_of_gives hslots hgifts
    cases ObjectEnd.closed_of_fault? (ok_of_noFault hend)
    exact .object (fun e he => (hsound e he).1) (fun e he => (hsound e he).2)
  | array ds ending =>
    obtain ⟨rfl, hsound⟩ := sound_of_readItems hslots h
    exact .array hsound
  | _ => exact absurd h mismatch_ne_ok

end Shape

/-- A text that a careful reader reads is valid JSON. -/
theorem Reader.Careful.exists_written {α : Type} {read : Reader α} (hread : Careful read)
    {text : String} {a : α} (h : ofText read text = .ok a) :
    ∃ d : Doc, d.WrittenAs text ∧ read d = .ok a := by
  rcases hdoc : Doc.ofText text with ⟨d, rest⟩
  rw [ofText, hdoc] at h
  obtain ⟨a', hd, h⟩ := bind_eq_ok_iff.mp h
  cases rest with
  | nil =>
    cases h
    exact ⟨d, Doc.writtenAs_of_ofText hdoc (hread d a hd), hd⟩
  | cons t ts => cases h

end Lineage.Json
