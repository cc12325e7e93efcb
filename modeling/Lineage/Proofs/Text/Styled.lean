import Mathlib.Data.List.Forall2
import Lineage.Proofs.Basic
import Lineage.Proofs.Text
import Lineage.Text

/-!
# Taking styles out

A terminal takes a style sequence out of the text: the escape character, a bracket, digits and
semicolons, and an `m`. `Sheds s t` says that `s` is `t` once the sequences are out, whatever stands
behind; so it holds of a text in parts if it holds of the parts, and of a styled text if this is
plain, that is, has no escape character of its own.
-/

namespace Lineage.Text

/-- May the character stand between the bracket and the `m`? -/
def isParameter (c : Char) : Bool := c.isDigit || c == ';'

/-- The length of the style sequence that a text begins with. -/
def sequenceLength? : List Char → Option Nat
  | '\x1b' :: '[' :: cs =>
    let parameters := cs.takeWhile isParameter
    if (cs.drop parameters.length).head? = some 'm' then some (parameters.length + 3) else none
  | _ => none

/-- `skip` counts the characters of a sequence that are still to be passed over. -/
def unstyleList (skip : Nat) : List Char → List Char
  | [] => []
  | c :: cs =>
    match skip with
    | k + 1 => unstyleList k cs
    | 0 =>
      match sequenceLength? (c :: cs) with
      | some n => unstyleList (n - 1) cs
      | none => c :: unstyleList 0 cs

/-- The text without its style sequences. -/
def unstyled (s : String) : String := String.ofList (unstyleList 0 s.toList)

/-- No escape character is in the text. -/
def Plain (s : String) : Prop := '\x1b' ∉ s.toList

instance : DecidablePred Plain := fun s => inferInstanceAs (Decidable (¬ '\x1b' ∈ s.toList))

theorem plain_append_iff {s t : String} : Plain (s ++ t) ↔ Plain s ∧ Plain t := by
  simp only [Plain, String.toList_append, List.mem_append, not_or]

theorem plain_toString (n : Nat) : Plain (toString n) := by
  rw [Plain, Nat.toString_eq_repr, Nat.toList_repr]
  exact Decimal.not_mem_digits (by decide) n

theorem mem_intercalate {α : Type} {a : α} {divider : List α} {parts : List (List α)}
    (h : a ∈ divider.intercalate parts) : a ∈ divider ∨ ∃ part ∈ parts, a ∈ part := by
  induction parts with
  | nil => cases h
  | cons part parts ih =>
    cases parts with
    | nil =>
      rw [List.intercalate_singleton] at h
      exact .inr ⟨part, List.mem_cons_self, h⟩
    | cons second parts =>
      rw [List.intercalate_cons_cons, List.mem_append, List.mem_append] at h
      rcases h with (h | h) | h
      · exact .inr ⟨part, List.mem_cons_self, h⟩
      · exact .inl h
      · exact (ih h).imp_right fun ⟨p, hp, hmem⟩ => ⟨p, List.mem_cons_of_mem part hp, hmem⟩

theorem plain_intercalate {divider : String} {parts : List String} (hdivider : Plain divider)
    (hparts : ∀ part ∈ parts, Plain part) : Plain (divider.intercalate parts) := by
  intro h
  rw [String.toList_intercalate] at h
  rcases mem_intercalate h with h | ⟨part, hpart, h⟩
  · exact hdivider h
  · obtain ⟨s, hs, rfl⟩ := List.mem_map.mp hpart
    exact hparts s hs h

/-! ## The steps -/

theorem unstyleList_skip (k : Nat) (cs : List Char) :
    unstyleList k cs = unstyleList 0 (cs.drop k) := by
  induction cs generalizing k with
  | nil => simp [unstyleList]
  | cons c cs ih =>
    cases k with
    | zero => rfl
    | succ k => rw [List.drop_succ_cons, ← ih, unstyleList]

theorem sequenceLength?_of_ne {c : Char} (h : c ≠ '\x1b') (cs : List Char) :
    sequenceLength? (c :: cs) = none := by
  unfold sequenceLength?
  split
  next heq => exact absurd (List.cons.inj heq).1 h
  next => rfl

theorem unstyleList_append_of_not_mem {cs : List Char} (h : '\x1b' ∉ cs) (rest : List Char) :
    unstyleList 0 (cs ++ rest) = cs ++ unstyleList 0 rest := by
  induction cs with
  | nil => rfl
  | cons c cs ih =>
    obtain ⟨hc, hcs⟩ := not_or.mp (mt List.mem_cons.mpr h)
    rw [List.cons_append, unstyleList, sequenceLength?_of_ne (Ne.symm hc), ih hcs, List.cons_append]

theorem unstyleList_sequence {parameters : List Char} (h : ∀ c ∈ parameters, isParameter c = true)
    (rest : List Char) :
    unstyleList 0 ('\x1b' :: '[' :: (parameters ++ 'm' :: rest)) = unstyleList 0 rest := by
  have htake : (parameters ++ 'm' :: rest).takeWhile isParameter = parameters := by
    rw [List.takeWhile_append_of_pos h, List.takeWhile_cons_of_neg (by decide), List.append_nil]
  have hlength : sequenceLength? ('\x1b' :: '[' :: (parameters ++ 'm' :: rest)) =
      some (parameters.length + 3) := by
    simp only [sequenceLength?, htake, List.drop_left, List.head?_cons, if_true]
  have hdrop : ('[' :: (parameters ++ 'm' :: rest)).drop (parameters.length + 2) = rest := by
    rw [List.drop_succ_cons, ← List.drop_drop, List.drop_left]
    rfl
  rw [unstyleList, hlength]
  exact (unstyleList_skip _ _).trans (congrArg _ hdrop)

/-- Without its style sequences the first text is the second, whatever stands behind it. -/
def Sheds (s t : String) : Prop :=
  ∀ rest, unstyleList 0 (s.toList ++ rest) = t.toList ++ unstyleList 0 rest

section
variable {s s' t t' : String}

theorem Sheds.unstyled_eq (h : Sheds s t) : unstyled s = t := by
  have hall := h []
  rw [List.append_nil, unstyleList, List.append_nil] at hall
  rw [unstyled, hall, String.ofList_toList]

theorem Sheds.of_plain (h : Plain s) : Sheds s s := unstyleList_append_of_not_mem h

theorem Sheds.append (h : Sheds s t) (h' : Sheds s' t') : Sheds (s ++ s') (t ++ t') := by
  intro rest
  rw [String.toList_append, String.toList_append, List.append_assoc, h, h', List.append_assoc]

theorem Sheds.unlines {lines lines' : List String} (h : List.Forall₂ Sheds lines lines') :
    Sheds (unlines lines) (unlines lines') := by
  induction h with
  | nil => exact .of_plain (by decide)
  | cons hline _ ih =>
    simp only [Text.unlines, List.map_cons, String.join_cons] at ih ⊢
    exact (hline.append (.of_plain (by decide))).append ih

theorem isParameter_of_mem_code {style : Style} :
    ∀ c ∈ style.code.toList, isParameter c = true := by
  rw [← List.all_eq_true]
  cases style <;> rfl

theorem sheds_styleOn (styles : List Style) : Sheds (styleOn styles) "" := by
  have hparameters : ∀ c ∈ (";".intercalate (styles.map Style.code)).toList,
      isParameter c = true := by
    intro c hc
    rw [String.toList_intercalate] at hc
    rcases mem_intercalate hc with hc | ⟨part, hpart, hc⟩
    · rw [List.mem_singleton.mp hc]
      rfl
    · obtain ⟨code, hcode, rfl⟩ := List.mem_map.mp hpart
      obtain ⟨style, -, rfl⟩ := List.mem_map.mp hcode
      exact isParameter_of_mem_code c hc
  intro rest
  have hlist : (styleOn styles).toList ++ rest =
      '\x1b' :: '[' :: ((";".intercalate (styles.map Style.code)).toList ++ 'm' :: rest) := by
    simp [styleOn]
  rw [hlist]
  exact unstyleList_sequence hparameters rest

theorem sheds_styleOff : Sheds styleOff "" :=
  unstyleList_sequence (List.forall_mem_singleton.mpr (by decide))

/-- A plain text does not switch styles off, so nothing is put into it. -/
theorem sheds_styled (h : Plain s) (styles : List Style) : Sheds (styled styles s) s := by
  unfold styled
  split
  · exact .of_plain h
  · have habsent : ¬ styleOff.toList <:+: s.toList := fun hoccurs => h (hoccurs.subset (by decide))
    have hsame : replaceAll s styleOff (styleOff ++ styleOn styles) = s := by
      rw [replaceAll, replaceList_of_absent habsent, String.ofList_toList]
    have hall := ((sheds_styleOn styles).append (.of_plain h)).append sheds_styleOff
    rw [hsame]
    rwa [String.empty_append, String.append_empty] at hall

theorem sheds_styledIf (h : Plain s) (styles : List Style) :
    Sheds (styledIf true styles s) (styledIf false styles s) := sheds_styled h styles

end

end Lineage.Text
