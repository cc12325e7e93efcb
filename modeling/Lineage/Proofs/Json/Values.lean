import Lineage.Json.Reader
import Lineage.Proofs.Basic
import Lineage.Proofs.Json.Careful

/-!
# Values of one kind

For each reader of one value the documents that it reads, and what it makes of them. A string here
is one that has a text: half of a surrogate pair has none, though it can be written.

The digits of a number are taken as long as 64 bits hold what they make, so all of them are taken
exactly if the whole number fits (`takeDigits_of_lt`, `lt_of_used_takeDigits`). Then a number
without a sign, a fraction and an exponent is the integer of its digits, and no other number is one
(`read_eq_natural_iff`).
-/

namespace Lineage.Json.Number

open Decimal

theorem takeDigits_of_lt {n : Nat} {cs : List Char} (h : appendDigits n cs < UInt64.size)
    (used : Nat) : takeDigits n used cs = (appendDigits n cs, used + cs.length) := by
  induction cs generalizing n used with
  | nil => rfl
  | cons c cs ih =>
    rw [appendDigits_cons] at h ⊢
    have hfits : n * 10 + digitValue c < UInt64.size := Nat.lt_of_le_of_lt (le_appendDigits _ cs) h
    rw [takeDigits, if_pos hfits, ih h, List.length_cons, Nat.add_assoc, Nat.add_comm 1]

theorem lt_of_used_takeDigits {n used : Nat} {cs : List Char} (hn : n < UInt64.size)
    (h : (takeDigits n used cs).2 = used + cs.length) : appendDigits n cs < UInt64.size := by
  fun_induction takeDigits n used cs with
  | case1 => exact hn
  | case2 n used c cs n' hfits ih =>
    rw [List.length_cons] at h
    rw [appendDigits_cons]
    exact ih hfits (by omega)
  | case3 n used c cs n' hfits =>
    -- A digit is left out here, so not all are used.
    rw [List.length_cons] at h
    omega

theorem value_eq_natural_iff {n : Number} {k : Nat} :
    n.value = .ok (.natural k) ↔
      ∃ digits, n = { negative := false, whole := digits } ∧ appendDigits 0 digits = k ∧
        k < UInt64.size := by
  obtain ⟨negative, whole, fraction, exponent⟩ := n
  constructor
  · intro h
    rcases htake : takeDigits 0 0 whole with ⟨s, used⟩
    simp only [value, htake] at h
    split at h
    next hplain =>
      obtain ⟨hfraction, hexponent, hused⟩ := hplain
      have hall : (takeDigits 0 0 whole).2 = 0 + whole.length := by rw [htake, hused, Nat.zero_add]
      have hfits := lt_of_used_takeDigits (by decide) hall
      rw [takeDigits_of_lt hfits] at htake
      cases negative with
      | true =>
        simp only [Bool.not_true, Bool.false_eq_true, if_false] at h
        split at h <;> cases h
      | false =>
        cases htake
        cases h
        rw [List.isEmpty_iff] at hfraction
        rw [Option.isNone_iff_eq_none] at hexponent
        exact ⟨whole, by rw [hfraction, hexponent], rfl, hfits⟩
    next =>
      obtain ⟨f, -, h⟩ := map_eq_ok_iff.mp h
      cases h
  · rintro ⟨digits, ⟨⟩, rfl, hfits⟩
    simp [value, takeDigits_of_lt hfits]

theorem read_eq_natural_iff {n : Number} {k : Nat} :
    n.read = .ok (.natural k) ↔
      ∃ digits, n = { negative := false, whole := digits } ∧ appendDigits 0 digits = k ∧
        k < UInt64.size := by
  rw [← value_eq_natural_iff, read]
  cases n.value with
  | error fault => exact ⟨nofun, nofun⟩
  | ok v => exact ⟨fun h => congrArg _ (Except.ok.inj h), fun h => congrArg _ (Except.ok.inj h)⟩

end Lineage.Json.Number

/-! ## Values -/

namespace Lineage.Json.Reader

section
variable {d : Doc}

theorem text_eq_ok_iff {expected s : String} :
    text expected d = .ok s ↔
      ∃ lexeme : StringLexeme, d = .string lexeme ∧ lexeme.read = .ok s := by
  constructor
  · intro h
    cases d with
    | string lexeme => exact ⟨lexeme, rfl, h⟩
    | _ => exact absurd h mismatch_ne_ok
  · rintro ⟨lexeme, rfl, h⟩
    exact h

theorem word_eq_ok_iff {k : UInt32} :
    word d = .ok k ↔
      ∃ digits, d = .number { negative := false, whole := digits } ∧
        Decimal.appendDigits 0 digits = k.toNat := by
  constructor
  · intro h
    cases d with
    | number n =>
      obtain ⟨v, hv, hk⟩ := bind_eq_ok_iff.mp h
      cases v with
      | natural m =>
        obtain ⟨digits, rfl, hm, -⟩ := Number.read_eq_natural_iff.mp hv
        by_cases hlt : m < UInt32.size
        · simp only [if_pos hlt] at hk
          cases hk
          exact ⟨digits, rfl, by rw [hm, UInt32.toNat_ofNat_of_lt' hlt]⟩
        · simp only [if_neg hlt] at hk
          cases hk
      | negative m => cases hk
      | float f => cases hk
    | _ => exact absurd h mismatch_ne_ok
  · rintro ⟨digits, rfl, hdigits⟩
    have hlt : k.toNat < UInt32.size := k.toNat_lt_size
    have hread : Number.read { negative := false, whole := digits } = .ok (.natural k.toNat) :=
      Number.read_eq_natural_iff.mpr ⟨digits, rfl, hdigits, Nat.lt_trans hlt (by decide)⟩
    rw [word, hread]
    show (if k.toNat < UInt32.size then pure (UInt32.ofNat k.toNat) else _) = _
    rw [if_pos hlt, UInt32.ofNat_toNat]
    rfl

theorem careful_word : Careful word := by
  intro d k h
  obtain ⟨digits, rfl, -⟩ := word_eq_ok_iff.mp h
  exact .number _

end

section
variable {α : Type} {d : Doc}

/-- `null` is no value, and any other document is read as a value is. -/
theorem optional_eq_ok_iff {read : Reader α} (hcareful : Careful read)
    (hnull : ∀ a, read .null ≠ .ok a) {o : Option α} :
    optional read d = .ok o ↔ d = .null ∧ o = none ∨ ∃ a, read d = .ok a ∧ o = some a := by
  constructor
  · intro h
    unfold optional at h
    split at h
    · cases h
      exact .inl ⟨rfl, rfl⟩
    · cases h
    · obtain ⟨a, hread, rfl⟩ := map_eq_ok_iff.mp h
      exact .inr ⟨a, hread, rfl⟩
  · rintro (⟨rfl, rfl⟩ | ⟨a, hread, rfl⟩)
    · rfl
    · unfold optional
      split
      · exact absurd hread (hnull a)
      · cases hcareful _ a hread
      · rw [hread]
        rfl

theorem alternative_eq_ok_iff {known : List (String × α)} {name : String} {a : α} :
    alternative known name = .ok a ↔ known.lookup name = some a := by
  unfold alternative
  split
  next b hb => rw [hb, Except.ok.injEq, Option.some.injEq]
  next hnone => exact ⟨nofun, fun h => by rw [hnone] at h; cases h⟩

/-- An alternative is named by a string, or by the only key of an object that holds `null`. -/
theorem oneOf_eq_ok_iff {known : List (String × α)} {a : α} :
    oneOf known d = .ok a ↔
      ∃ (lexeme : StringLexeme) (name : String), lexeme.read = .ok name ∧
        known.lookup name = some a ∧
        (d = .string lexeme ∨ d = .object [(lexeme, .null)] .closed) := by
  constructor
  · intro h
    unfold oneOf at h
    split at h
    next lexeme =>
      obtain ⟨name, hname, h⟩ := bind_eq_ok_iff.mp h
      exact ⟨lexeme, name, hname, alternative_eq_ok_iff.mp h, .inl rfl⟩
    next key d others ending =>
      obtain ⟨name, hkey, h⟩ := bind_eq_ok_iff.mp h
      obtain ⟨a', ha, h⟩ := bind_eq_ok_iff.mp h
      obtain ⟨_, hunit, h⟩ := bind_eq_ok_iff.mp h
      obtain ⟨_, hend, h⟩ := bind_eq_ok_iff.mp h
      cases h
      obtain ⟨rfl, rfl⟩ := eq_of_afterOnlyEntry (ok_of_noFault hend)
      cases d with
      | null => exact ⟨key, name, hkey, alternative_eq_ok_iff.mp ha, .inr rfl⟩
      | _ => exact absurd hunit mismatch_ne_ok
    all_goals cases h
  · rintro ⟨lexeme, name, hname, hlookup, rfl | rfl⟩
    · exact bind_eq_ok_iff.mpr ⟨name, hname, alternative_eq_ok_iff.mpr hlookup⟩
    · exact bind_eq_ok_iff.mpr
        ⟨name, hname, bind_eq_ok_iff.mpr ⟨a, alternative_eq_ok_iff.mpr hlookup, rfl⟩⟩

end

end Lineage.Json.Reader
