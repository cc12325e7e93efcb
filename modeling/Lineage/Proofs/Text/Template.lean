import Lineage.Proofs.Basic
import Lineage.Proofs.Text
import Lineage.Text

/-!
# Templates filled in one pass

`fillOnce` goes through a template once, so what an argument brings in is text and no placeholder.
`fill` takes one number after the other and looks for a later number in the arguments that are there
already. It comes to the same if no argument but the last can be a part of a placeholder (`Inert`).
-/

namespace Lineage.Text

open Decimal

/-- The number and the argument whose placeholder the text begins with. The arguments are numbered
from `i` on. -/
def argument? (i : Nat) (cs : List Char) : List String → Option (Nat × String)
  | [] => none
  | arg :: args =>
    if (placeholder i).toList.isPrefixOf cs then some (i, arg) else argument? (i + 1) cs args

/-- `skip` counts the characters of a placeholder that are still to be passed over. -/
def fillList (i : Nat) (args : List String) (skip : Nat) : List Char → List Char
  | [] => []
  | c :: cs =>
    match skip with
    | k + 1 => fillList i args k cs
    | 0 =>
      match argument? i (c :: cs) args with
      | some (j, arg) => arg.toList ++ fillList i args ((placeholder j).toList.length - 1) cs
      | none => c :: fillList i args 0 cs

/-- `message` with each placeholder of an argument replaced by the argument, which is not looked at
again. -/
def fillOnce (message : String) (args : List String) : String :=
  String.ofList (fillList 0 args 0 message.toList)

section
variable {i j : Nat} {rest : List Char}

theorem toList_placeholder (i : Nat) :
    (placeholder i).toList = '\x7b' :: (Nat.toDigits 10 i ++ ['\x7d']) := by
  simp [placeholder]

/-- The number of a placeholder is what stands before the brace that closes it. -/
theorem takeWhile_digits (i : Nat) (rest : List Char) :
    (Nat.toDigits 10 i ++ '\x7d' :: rest).takeWhile Char.isDigit = Nat.toDigits 10 i := by
  rw [List.takeWhile_append_of_pos isDigit_of_mem_digits, List.takeWhile_cons_of_neg (by decide),
    List.append_nil]

theorem placeholder_prefix_iff :
    (placeholder i).toList <+: (placeholder j).toList ++ rest ↔ i = j := by
  constructor
  · rintro ⟨more, h⟩
    simp only [toList_placeholder, List.cons_append, List.append_assoc, List.nil_append,
      List.cons.injEq, true_and] at h
    have hdigits : Nat.toDigits 10 i = Nat.toDigits 10 j := by
      rw [← takeWhile_digits i more, h, takeWhile_digits]
    exact toDigits_injective hdigits
  · rintro rfl
    exact List.prefix_append _ _

theorem placeholder_ne_nil (i : Nat) : (placeholder i).toList ≠ [] := by
  rw [toList_placeholder]
  exact List.cons_ne_nil _ _

end

/-! ## One pass over a template -/

section
variable {i j : Nat} {arg : String} {args : List String} {cs rest : List Char}

theorem argument?_eq_some_iff :
    argument? i cs args = some (j, arg) ↔
      (placeholder j).toList <+: cs ∧ i ≤ j ∧ args[j - i]? = some arg := by
  induction args generalizing i with
  | nil => simp [argument?]
  | cons a args ih =>
    simp only [argument?, List.isPrefixOf_iff_prefix]
    split
    next hi =>
      constructor
      · rintro ⟨⟩
        exact ⟨hi, le_refl _, by rw [Nat.sub_self, List.getElem?_cons_zero]⟩
      · rintro ⟨⟨more, rfl⟩, -, harg⟩
        obtain rfl := placeholder_prefix_iff.mp hi
        rw [Nat.sub_self, List.getElem?_cons_zero] at harg
        rw [Option.some.inj harg]
    next hi =>
      rw [ih]
      refine and_congr_right fun hj => ?_
      have hne : i ≠ j := fun h => hi (h ▸ hj)
      constructor
      · rintro ⟨hij, harg⟩
        refine ⟨Nat.le_of_lt hij, ?_⟩
        rwa [show j - i = j - (i + 1) + 1 by omega, List.getElem?_cons_succ]
      · rintro ⟨hij, harg⟩
        refine ⟨by omega, ?_⟩
        rwa [show j - i = j - (i + 1) + 1 by omega, List.getElem?_cons_succ] at harg

theorem argument?_cons_eq_none_iff :
    argument? i cs (arg :: args) = none ↔
      ¬ (placeholder i).toList <+: cs ∧ argument? (i + 1) cs args = none := by
  rw [argument?, ← List.isPrefixOf_iff_prefix]
  split <;> simp [*]

theorem argument?_eq_none (h : ∀ j, ¬ (placeholder j).toList <+: cs) :
    argument? i cs args = none :=
  Option.eq_none_iff_forall_ne_some.mpr fun ⟨j, _⟩ hj => h j (argument?_eq_some_iff.mp hj).1

/-- Another number is not found in a placeholder. -/
theorem replaceList_placeholder_append {new : List Char} (h : i ≠ j) :
    replaceList (placeholder i).toList new 0 ((placeholder j).toList ++ rest) =
      (placeholder j).toList ++ replaceList (placeholder i).toList new 0 rest := by
  have hdigits : '\x7b' ∉ Nat.toDigits 10 j ++ ['\x7d'] := by
    rw [List.mem_append, not_or]
    exact ⟨fun h => absurd h (not_mem_digits (by decide) _), by decide⟩
  have hj : ¬ (placeholder i).toList <+: (placeholder j).toList ++ rest :=
    mt placeholder_prefix_iff.mp h
  rw [toList_placeholder j, List.cons_append] at hj ⊢
  rw [replaceList_cons_of_neg hj, toList_placeholder i, replaceList_append_of_not_mem hdigits,
    List.cons_append]

theorem placeholder_absent (h : '\x7b' ∉ cs) : ¬ (placeholder i).toList <:+: cs := by
  rw [toList_placeholder]
  exact fun hin => h (hin.subset List.mem_cons_self)

/-- Text without a brace is passed over. -/
theorem replaceList_placeholder_of_no_brace {new : List Char} (h : '\x7b' ∉ cs) :
    replaceList (placeholder i).toList new 0 (cs ++ rest) =
      cs ++ replaceList (placeholder i).toList new 0 rest := by
  rw [toList_placeholder, replaceList_append_of_not_mem h]

theorem fillList_skip (i : Nat) (args : List String) (k : Nat) (cs : List Char) :
    fillList i args k cs = fillList i args 0 (cs.drop k) := by
  induction cs generalizing k with
  | nil => simp [fillList]
  | cons c cs ih =>
    cases k with
    | zero => rfl
    | succ k => rw [List.drop_succ_cons, ← ih, fillList]

theorem fillList_no_args (i : Nat) (cs : List Char) : fillList i [] 0 cs = cs := by
  induction cs with
  | nil => rfl
  | cons c cs ih => rw [fillList, argument?, ih]

theorem fillList_append_of_some
    (h : argument? i ((placeholder j).toList ++ rest) args = some (j, arg)) :
    fillList i args 0 ((placeholder j).toList ++ rest) =
      arg.toList ++ fillList i args 0 rest := by
  obtain ⟨c, tail, hmark⟩ := List.exists_cons_of_ne_nil (placeholder_ne_nil j)
  rw [hmark, List.cons_append] at h ⊢
  rw [fillList, h]
  simp only [hmark, List.length_cons, Nat.add_sub_cancel]
  rw [fillList_skip, List.drop_left]

theorem fillList_cons_of_none {c : Char} (h : argument? i (c :: cs) args = none) :
    fillList i args 0 (c :: cs) = c :: fillList i args 0 cs := by
  rw [fillList, h]

/-- A template is gone through by the placeholders of its arguments and by the characters where
none begins. -/
theorem template_induction {motive : List Char → Prop} (i : Nat) (args : List String)
    (nil : motive [])
    (mark : ∀ j arg rest,
      argument? i ((placeholder j).toList ++ rest) args = some (j, arg) → motive rest →
      motive ((placeholder j).toList ++ rest))
    (plain : ∀ c cs, argument? i (c :: cs) args = none → motive cs → motive (c :: cs)) :
    ∀ cs, motive cs
  | [] => nil
  | c :: cs => by
    rcases h : argument? i (c :: cs) args with _ | ⟨j, arg⟩
    · exact plain c cs h (template_induction i args nil mark plain cs)
    · obtain ⟨⟨rest, hrest⟩, -⟩ := argument?_eq_some_iff.mp h
      have hshorter : rest.length < (c :: cs).length := by
        rw [← hrest, List.length_append]
        exact Nat.lt_add_of_pos_left (List.length_pos_of_ne_nil (placeholder_ne_nil j))
      rw [← hrest] at h ⊢
      exact mark j arg rest h (template_induction i args nil mark plain rest)
  termination_by cs => cs.length
  decreasing_by
    · exact Nat.lt_succ_self cs.length
    · exact hshorter

end

/-! ## Arguments that cannot be a part of a placeholder -/

/-- Whether the first character that is no digit is there and does not close a placeholder. -/
def solid : List Char → Bool
  | [] => false
  | c :: cs => if c.isDigit then solid cs else c != '\x7d'

/-- No placeholder begins, ends or stands in the text, wherever it is put. -/
structure Inert (arg : String) : Prop where
  solid : solid arg.toList
  /-- Each brace that opens is followed by something else than a number of a placeholder. -/
  opened : ∀ cs, '\x7b' :: cs <:+ arg.toList → Text.solid cs

theorem Inert.of_no_brace {arg : String} (h : Text.solid arg.toList)
    (hbrace : '\x7b' ∉ arg.toList) : Inert arg :=
  ⟨h, fun _ hcs => absurd (hcs.mem List.mem_cons_self) hbrace⟩

section
variable {i : Nat} {arg : String} {args : List String} {cs rest digits : List Char}

theorem not_prefix_of_solid (hcs : solid cs) (hdigits : ∀ d ∈ digits, d.isDigit = true) :
    ¬ digits ++ ['\x7d'] <+: cs ++ rest := by
  induction cs generalizing digits with
  | nil => nomatch hcs
  | cons c cs ih =>
    rw [solid] at hcs
    cases digits with
    | nil =>
      intro h
      obtain ⟨rfl, -⟩ := List.cons_prefix_cons.mp h
      exact absurd hcs Bool.false_ne_true
    | cons d digits =>
      intro h
      obtain ⟨rfl, htail⟩ := List.cons_prefix_cons.mp h
      rw [if_pos (hdigits d List.mem_cons_self)] at hcs
      exact ih hcs (fun e he => hdigits e (List.mem_cons_of_mem _ he)) htail

/-- An inert argument is passed over, whatever stands behind it. -/
theorem fillList_append_of_opened (h : ∀ y, '\x7b' :: y <:+ cs → solid y) :
    fillList i args 0 (cs ++ rest) = cs ++ fillList i args 0 rest := by
  induction cs with
  | nil => rfl
  | cons c cs ih =>
    have htail : ∀ y, '\x7b' :: y <:+ cs → solid y :=
      fun y hy => h y (hy.trans (List.suffix_cons c cs))
    rw [List.cons_append, fillList_cons_of_none, ih htail, List.cons_append]
    refine argument?_eq_none fun j hj => ?_
    rw [toList_placeholder] at hj
    obtain ⟨rfl, hdigits⟩ := List.cons_prefix_cons.mp hj
    exact not_prefix_of_solid (h cs List.suffix_rfl) isDigit_of_mem_digits hdigits

/-- A solid argument closes no placeholder that the text before it opens. -/
theorem prefix_of_prefix_replaceList (harg : solid arg.toList)
    (hdigits : ∀ d ∈ digits, d.isDigit = true)
    (h : digits ++ ['\x7d'] <+: replaceList (placeholder i).toList arg.toList 0 cs) :
    digits ++ ['\x7d'] <+: cs := by
  induction cs using occurrence_induction (placeholder_ne_nil i) generalizing digits with
  | nil => exact h
  | occurrence rest _ =>
    rw [replaceList_append_of_pos (placeholder_ne_nil i)] at h
    exact absurd h (not_prefix_of_solid harg hdigits)
  | plain c cs hc ih =>
    rw [replaceList_cons_of_neg hc] at h
    cases digits with
    | nil => exact List.cons_prefix_cons.mpr ⟨(List.cons_prefix_cons.mp h).1, List.nil_prefix⟩
    | cons d digits =>
      obtain ⟨hd, htail⟩ := List.cons_prefix_cons.mp h
      exact List.cons_prefix_cons.mpr
        ⟨hd, ih (fun e he => hdigits e (List.mem_cons_of_mem _ he)) htail⟩

/-- Filling the first number by itself comes to the same if its argument is inert. -/
theorem fillList_cons_args (h : args = [] ∨ Inert arg) (cs : List Char) :
    fillList i (arg :: args) 0 cs =
      fillList (i + 1) args 0 (replaceList (placeholder i).toList arg.toList 0 cs) := by
  induction cs using template_induction i (arg :: args) with
  | nil => rfl
  | mark j a rest hj ih =>
    obtain ⟨-, hij, ha⟩ := argument?_eq_some_iff.mp hj
    rw [fillList_append_of_some hj, ih]
    rcases hij.eq_or_lt with rfl | hlt
    · rw [Nat.sub_self, List.getElem?_cons_zero] at ha
      rw [replaceList_append_of_pos (placeholder_ne_nil i), Option.some.inj ha]
      rcases h with rfl | harg
      · rw [fillList_no_args, fillList_no_args]
      · rw [fillList_append_of_opened (Option.some.inj ha ▸ harg.opened)]
    · rw [replaceList_placeholder_append (by omega), fillList_append_of_some]
      rw [show j - i = j - (i + 1) + 1 by omega, List.getElem?_cons_succ] at ha
      exact argument?_eq_some_iff.mpr ⟨List.prefix_append _ _, hlt, ha⟩
  | plain c cs hc ih =>
    obtain ⟨hi, hargs⟩ := argument?_cons_eq_none_iff.mp hc
    rw [fillList_cons_of_none hc, ih, replaceList_cons_of_neg hi, fillList_cons_of_none]
    rcases h with rfl | harg
    · rfl
    · -- A placeholder behind `c` after the replacement has been there before it.
      refine Option.eq_none_iff_forall_ne_some.mpr fun ⟨j, a⟩ hj => ?_
      obtain ⟨hj, hfound⟩ := argument?_eq_some_iff.mp hj
      rw [toList_placeholder] at hj
      obtain ⟨rfl, hdigits⟩ := List.cons_prefix_cons.mp hj
      have hj' : (placeholder j).toList <+: '\x7b' :: cs := by
        rw [toList_placeholder]
        exact List.cons_prefix_cons.mpr
          ⟨rfl, prefix_of_prefix_replaceList harg.solid isDigit_of_mem_digits hdigits⟩
      rw [argument?_eq_some_iff.mpr ⟨hj', hfound⟩] at hargs
      cases hargs

theorem fillFrom_eq_fillList (h : ∀ arg ∈ args.dropLast, Inert arg) (message : String) :
    fillFrom i message args = String.ofList (fillList i args 0 message.toList) := by
  induction args generalizing i message with
  | nil => rw [fillFrom, fillList_no_args, String.ofList_toList]
  | cons arg args ih =>
    have hargs : args = [] ∨ Inert arg := by
      cases args with
      | nil => exact .inl rfl
      | cons next args => exact .inr (h arg List.mem_cons_self)
    have htail : ∀ a ∈ args.dropLast, Inert a := by
      cases args with
      | nil => nofun
      | cons next args => exact fun a ha => h a (List.mem_cons_of_mem arg ha)
    rw [fillFrom, ih htail, replaceAll, String.toList_ofList, fillList_cons_args hargs]

end

/-- One number after the other comes to the same as one pass. -/
theorem fill_eq_fillOnce {args : List String} (h : ∀ arg ∈ args.dropLast, Inert arg)
    (message : String) : fill message args = fillOnce message args :=
  fillFrom_eq_fillList h message

end Lineage.Text
