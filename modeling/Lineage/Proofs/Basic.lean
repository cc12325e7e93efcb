import Lineage.Decimal

/-!
# Steps that go through, and digits

A computation of several steps goes through if each step does. A number is known from its digits,
among which there is nothing but digits, and it grows with each digit that is written behind it.
-/

namespace Lineage

variable {ε α β : Type} {x : Except ε α}

theorem bind_eq_ok_iff {f : α → Except ε β} {b : β} :
    (x >>= f) = .ok b ↔ ∃ a, x = .ok a ∧ f a = .ok b := by
  cases x with
  | error e => exact ⟨nofun, fun ⟨_, h, _⟩ => nomatch h⟩
  | ok a => exact ⟨fun h => ⟨a, rfl, h⟩, fun ⟨_, h, h'⟩ => by cases h; exact h'⟩

theorem map_eq_ok_iff {f : α → β} {b : β} : x.map f = .ok b ↔ ∃ a, x = .ok a ∧ f a = b := by
  cases x with
  | error e => exact ⟨nofun, fun ⟨_, h, _⟩ => nomatch h⟩
  | ok a => exact ⟨fun h => ⟨a, rfl, Except.ok.inj h⟩, fun ⟨_, h, h'⟩ => by cases h; rw [← h']; rfl⟩

end Lineage

namespace Lineage.Decimal

theorem toDigits_injective : Function.Injective (Nat.toDigits 10) := by
  intro m n h
  calc
    m = Nat.ofDigitChars 10 (Nat.toDigits 10 m) 0 := Nat.ofDigitChars_ten_toDigits.symm
    _ = Nat.ofDigitChars 10 (Nat.toDigits 10 n) 0 := by rw [h]
    _ = n := Nat.ofDigitChars_ten_toDigits

theorem isDigit_of_mem_digits {n : Nat} : ∀ c ∈ Nat.toDigits 10 n, c.isDigit = true :=
  fun _ hc => Nat.isDigit_of_mem_toDigits (by decide) (by decide) hc

theorem not_mem_digits {c : Char} (h : c.isDigit = false) (n : Nat) : c ∉ Nat.toDigits 10 n := by
  intro hmem
  rw [isDigit_of_mem_digits c hmem] at h
  cases h

theorem appendDigits_cons (n : Nat) (c : Char) (cs : List Char) :
    appendDigits n (c :: cs) = appendDigits (n * 10 + digitValue c) cs := by
  simp only [appendDigits, List.foldl_cons]

theorem appendDigits_eq_ofDigitChars (n : Nat) (cs : List Char) :
    appendDigits n cs = Nat.ofDigitChars 10 cs n := by
  induction cs generalizing n with
  | nil => rfl
  | cons c cs ih =>
    rw [appendDigits_cons, ih, Nat.mul_comm]
    rfl

/-- Digits, of which there is at least one. -/
def IsNumeral (cs : List Char) : Prop := cs ≠ [] ∧ ∀ c ∈ cs, c.isDigit

theorem natural?_eq_some_iff {cs : List Char} {n : Nat} :
    natural? cs = some n ↔ IsNumeral cs ∧ Nat.ofDigitChars 10 cs 0 = n := by
  rw [← appendDigits_eq_ofDigitChars]
  unfold natural? IsNumeral
  cases cs with
  | nil => simp
  | cons c cs => by_cases h : ∀ d ∈ c :: cs, d.isDigit <;> simp_all

theorem le_appendDigits (n : Nat) (cs : List Char) : n ≤ appendDigits n cs := by
  induction cs generalizing n with
  | nil => exact Nat.le_refl n
  | cons c cs ih =>
    have hstep : n ≤ n * 10 + digitValue c := by omega
    rw [appendDigits_cons]
    exact Nat.le_trans hstep (ih _)

end Lineage.Decimal
