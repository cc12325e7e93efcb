import Lineage.Candidate.Json
import Lineage.Proofs.Basic

/-!
# Snippets

A snippet is written without escapes, so a parameter may look like the end of a list of arguments
or like another placeholder. It is still read back from left to right if no parameter closes its
own placeholder: the name goes up to the first parenthesis, a number up to the colon and a
parameter up to the brace. The reading below accepts nothing but what is written this way.
-/

namespace Lineage

open Decimal

/-- The text up to the first `c` and the text behind it. -/
def cutAt? (c : Char) : List Char → Option (List Char × List Char)
  | [] => none
  | d :: cs =>
    if d = c then some ([], cs) else (cutAt? c cs).map fun (front, rest) => (d :: front, rest)

section
variable {c : Char} {cs front rest : List Char}

theorem cutAt?_append (h : c ∉ front) (rest : List Char) :
    cutAt? c (front ++ c :: rest) = some (front, rest) := by
  induction front with
  | nil => exact if_pos rfl
  | cons d front ih =>
    rw [List.mem_cons, not_or] at h
    rw [List.cons_append, cutAt?, if_neg (Ne.symm h.1), ih h.2]
    rfl

theorem eq_of_cutAt? (h : cutAt? c cs = some (front, rest)) :
    c ∉ front ∧ cs = front ++ c :: rest := by
  fun_induction cutAt? c cs generalizing front with
  | case1 => cases h
  | case2 cs =>
    cases h
    exact ⟨List.not_mem_nil, rfl⟩
  | case3 d cs hd ih =>
    obtain ⟨⟨front, rest⟩, hcut, heq⟩ := Option.map_eq_some_iff.mp h
    cases heq
    obtain ⟨hfront, rfl⟩ := ih hcut
    refine ⟨?_, rfl⟩
    rw [List.mem_cons, not_or]
    exact ⟨Ne.symm hd, hfront⟩

end

/-- The number that is written with these digits, if they are the way to write it. -/
def number? (digits : List Char) : Option Nat :=
  let n := Nat.ofDigitChars 10 digits 0
  if Nat.toDigits 10 n = digits then some n else none

theorem number?_eq_some_iff {digits : List Char} {n : Nat} :
    number? digits = some n ↔ Nat.toDigits 10 n = digits := by
  constructor
  · intro h
    rw [number?] at h
    split at h
    · next hn =>
      cases h
      exact hn
    · cases h
  · rintro rfl
    simp only [number?, Nat.ofDigitChars_ten_toDigits, if_true]

/-! ## Placeholders -/

/-- A placeholder as it stands in a snippet. -/
structure TabStop where
  number : Nat
  param : String
  deriving DecidableEq

namespace TabStop

def text (s : TabStop) : String := Insertion.tabStop s.number s.param

/-- Does the placeholder end behind its parameter and not within it? -/
def Closed (s : TabStop) : Prop := '\x7d' ∉ s.param.toList

/-- The placeholder at the front and the text behind it. -/
def take? : List Char → Option (TabStop × List Char)
  | '$' :: '\x7b' :: cs => do
    let (digits, cs) ← cutAt? ':' cs
    let number ← number? digits
    let (param, rest) ← cutAt? '\x7d' cs
    some (⟨number, String.ofList param⟩, rest)
  | _ => none

theorem toList_text_append (s : TabStop) (rest : List Char) :
    s.text.toList ++ rest =
      '$' :: '\x7b' :: (Nat.toDigits 10 s.number ++ ':' :: (s.param.toList ++ '\x7d' :: rest)) := by
  simp [text, Insertion.tabStop, Nat.toString_eq_repr]

theorem take?_eq_some_iff {s : TabStop} {cs rest : List Char} :
    take? cs = some (s, rest) ↔ s.Closed ∧ cs = s.text.toList ++ rest := by
  rw [toList_text_append]
  constructor
  · intro h
    unfold take? at h
    split at h
    · next cs =>
      simp only [Option.bind_eq_bind, Option.bind_eq_some_iff, Prod.exists] at h
      obtain ⟨digits, cs', hdigits, number, hnumber, param, rest', hparam, heq⟩ := h
      cases heq
      obtain ⟨-, rfl⟩ := eq_of_cutAt? hdigits
      obtain ⟨hclosed, rfl⟩ := eq_of_cutAt? hparam
      rw [← number?_eq_some_iff.mp hnumber]
      simp [Closed, hclosed]
    · cases h
  · rintro ⟨hclosed, rfl⟩
    have hcolon : ':' ∉ Nat.toDigits 10 s.number := not_mem_digits (by decide) _
    have hnumber : number? (Nat.toDigits 10 s.number) = some s.number :=
      number?_eq_some_iff.mpr rfl
    simp [take?, cutAt?_append hcolon, hnumber, cutAt?_append hclosed]

theorem length_lt_of_take? {s : TabStop} {cs rest : List Char} (h : take? cs = some (s, rest)) :
    rest.length < cs.length := by
  obtain ⟨-, rfl⟩ := take?_eq_some_iff.mp h
  rw [toList_text_append]
  simp only [List.length_cons, List.length_append]
  omega

/-- The placeholders, with commas between them, up to the parenthesis that ends the text. -/
def many? (cs : List Char) : Option (List TabStop) :=
  match h : take? cs with
  | some (s, [')']) => some [s]
  | some (s, ',' :: ' ' :: rest) =>
    have := length_lt_of_take? h
    (many? rest).map (s :: ·)
  | _ => none
termination_by cs.length
decreasing_by
  simp only [List.length_cons] at this
  omega

section
variable {s : TabStop} {cs rest : List Char}

theorem many?_of_last (h : take? cs = some (s, [')'])) : many? cs = some [s] := by
  rw [many?]
  split <;> simp_all

theorem many?_of_comma (h : take? cs = some (s, ',' :: ' ' :: rest)) :
    many? cs = (many? rest).map (s :: ·) := by
  rw [many?]
  split <;> simp_all

end

/-- The arguments of a call as they are written. -/
def joined (stops : List TabStop) : String := ", ".intercalate (stops.map text)

theorem toList_joined_cons_cons (s t : TabStop) (stops : List TabStop) (rest : List Char) :
    (joined (s :: t :: stops)).toList ++ rest =
      s.text.toList ++ ',' :: ' ' :: ((joined (t :: stops)).toList ++ rest) := by
  simp [joined]

theorem many?_eq_some_iff {cs : List Char} {stops : List TabStop} :
    many? cs = some stops ↔
      stops ≠ [] ∧ (∀ s ∈ stops, s.Closed) ∧ cs = (joined stops).toList ++ [')'] := by
  constructor
  · intro h
    -- The rest behind a comma is again a list, and not an empty one.
    fun_induction many? cs generalizing stops with
    | case1 cs s hs =>
      cases h
      obtain ⟨hclosed, rfl⟩ := take?_eq_some_iff.mp hs
      exact ⟨by simp, by simpa using hclosed, by simp [joined]⟩
    | case2 cs s rest hs _ ih =>
      obtain ⟨others, hothers, rfl⟩ := Option.map_eq_some_iff.mp h
      obtain ⟨hclosed, rfl⟩ := take?_eq_some_iff.mp hs
      obtain ⟨hne, hall, rfl⟩ := ih hothers
      obtain ⟨t, stops, rfl⟩ := List.exists_cons_of_ne_nil hne
      refine ⟨by simp, List.forall_mem_cons.mpr ⟨hclosed, hall⟩, ?_⟩
      rw [toList_joined_cons_cons]
    | case3 => cases h
  · rintro ⟨hne, hall, rfl⟩
    induction stops with
    | nil => exact absurd rfl hne
    | cons s stops ih =>
      obtain ⟨hclosed, hall⟩ := List.forall_mem_cons.mp hall
      cases stops with
      | nil =>
        apply many?_of_last
        exact take?_eq_some_iff.mpr ⟨hclosed, by simp [joined]⟩
      | cons t stops =>
        rw [toList_joined_cons_cons, many?_of_comma (take?_eq_some_iff.mpr ⟨hclosed, rfl⟩),
          ih (by simp) hall]
        rfl

/-- The placeholders of a call, from behind the parenthesis that opens. -/
def arguments? : List Char → Option (List TabStop)
  | [')'] => some []
  | cs => many? cs

theorem toList_joined_cons_ne_nil (s : TabStop) (stops : List TabStop) :
    (joined (s :: stops)).toList ≠ [] := by
  have hs : s.text.toList ≠ [] := by simp [text, Insertion.tabStop]
  cases stops <;> simp [joined, hs]

theorem arguments?_eq_some_iff {cs : List Char} {stops : List TabStop} :
    arguments? cs = some stops ↔
      (∀ s ∈ stops, s.Closed) ∧ cs = (joined stops).toList ++ [')'] := by
  unfold arguments?
  split
  · constructor
    · rintro ⟨⟩
      exact ⟨List.forall_mem_nil _, rfl⟩
    · rintro ⟨-, heq⟩
      have hnil : (joined stops).toList = [] := List.append_left_eq_self.mp heq.symm
      cases stops with
      | nil => rfl
      | cons s stops => exact absurd hnil (toList_joined_cons_ne_nil s stops)
  · next hcs =>
    rw [many?_eq_some_iff]
    refine ⟨And.right, fun h => ⟨?_, h⟩⟩
    rintro rfl
    exact hcs h.2

end TabStop

/-! ## Calls and references -/

namespace Insertion

/-- No parameter closes its placeholder. -/
def Enclosed : Insertion → Prop
  | reference => True
  | call params => ∀ p ∈ params, '\x7d' ∉ p.toList

/-- The parameters of a call, numbered from 1. -/
def numbered (params : List String) : List TabStop :=
  params.mapIdx fun i param => ⟨i + 1, param⟩

theorem map_param_numbered (params : List String) : (numbered params).map (·.param) = params :=
  List.ext_getElem (by simp [numbered]) (by simp [numbered])

theorem closed_of_mem_numbered {params : List String} (h : (call params).Enclosed) :
    ∀ s ∈ numbered params, s.Closed := by
  intro s hs
  obtain ⟨i, hi, rfl⟩ := List.mem_mapIdx.mp hs
  exact h _ (List.getElem_mem hi)

theorem toList_snippet_call (name : String) (params : List String) :
    ((call params).snippet name).toList =
      name.toList ++ '(' :: ((TabStop.joined (numbered params)).toList ++ [')']) := by
  have hstops : tabStops params = (numbered params).map TabStop.text :=
    List.ext_getElem (by simp [tabStops, numbered]) (by simp [tabStops, numbered, TabStop.text])
  simp [snippet, hstops, TabStop.joined]

/-- The name of a call is what stands before the first parenthesis. -/
theorem cutAt?_snippet_call {name : String} (h : '(' ∉ name.toList) (params : List String) :
    cutAt? '(' ((call params).snippet name).toList =
      some (name.toList, (TabStop.joined (numbered params)).toList ++ [')']) := by
  rw [toList_snippet_call]
  exact cutAt?_append h _

theorem snippet_call_injective {a b : String} {ps qs : List String} (ha : '(' ∉ a.toList)
    (hb : '(' ∉ b.toList) (hps : (call ps).Enclosed) (hqs : (call qs).Enclosed)
    (h : (call ps).snippet a = (call qs).snippet b) : a = b ∧ ps = qs := by
  have hcut := cutAt?_snippet_call hb qs
  rw [← h, cutAt?_snippet_call ha ps] at hcut
  obtain ⟨hname, htail⟩ := Prod.mk.inj (Option.some.inj hcut)
  have hread := TabStop.arguments?_eq_some_iff.mpr ⟨closed_of_mem_numbered hqs, rfl⟩
  rw [← htail, TabStop.arguments?_eq_some_iff.mpr ⟨closed_of_mem_numbered hps, rfl⟩] at hread
  refine ⟨String.toList_inj.mp hname, ?_⟩
  rw [← map_param_numbered ps, Option.some.inj hread, map_param_numbered]

theorem snippet_reference_ne_call {a b : String} (ha : '(' ∉ a.toList) (params : List String) :
    reference.snippet a ≠ (call params).snippet b := by
  intro h
  have hmem : '(' ∈ (reference.snippet a).toList := by
    rw [h, toList_snippet_call]
    exact List.mem_append_right _ List.mem_cons_self
  exact ha hmem

/-- Snippets of names without a parenthesis, with parameters that do not close their placeholders,
are different if anything is different that they are made of. A call is its name, a parenthesis and
then the only text that is read as its parameters, numbered from 1 in their order. -/
theorem snippet_tells_parts :
    (∀ (a b : String) (i j : Insertion), '(' ∉ a.toList → '(' ∉ b.toList → i.Enclosed →
      j.Enclosed → (i.snippet a = j.snippet b ↔ a = b ∧ i = j)) ∧
    ∀ (name : String) (params : List String), (call params).Enclosed →
      ∃ tail, ((call params).snippet name).toList = name.toList ++ '(' :: tail ∧
        ∀ cs, TabStop.arguments? cs =
          some (params.mapIdx fun i param => ⟨i + 1, param⟩) ↔ cs = tail := by
  refine ⟨fun a b i j ha hb hi hj => ⟨fun h => ?_, ?_⟩, fun name params h => ?_⟩
  · cases i with
    | reference =>
      cases j with
      | reference => exact ⟨h, rfl⟩
      | call qs => exact absurd h (snippet_reference_ne_call ha qs)
    | call ps =>
      cases j with
      | reference => exact absurd h.symm (snippet_reference_ne_call hb ps)
      | call qs =>
        obtain ⟨rfl, rfl⟩ := snippet_call_injective ha hb hi hj h
        exact ⟨rfl, rfl⟩
  · rintro ⟨rfl, rfl⟩
    rfl
  · refine ⟨_, toList_snippet_call name params, fun cs => ?_⟩
    exact TabStop.arguments?_eq_some_iff.trans (and_iff_right (closed_of_mem_numbered h))

/-- A parameter that looks like two, and two parameters. -/
theorem snippet_tells_parts_lookalike :
    let one : Insertion := call ["a, $\x7b2:b"]
    let two : Insertion := call ["a", "b"]
    '(' ∉ "f".toList ∧ one.Enclosed ∧ two.Enclosed ∧ one.snippet "f" ≠ two.snippet "f" ∧
      one.snippet "f" = "f($\x7b1:a, $\x7b2:b\x7d)" ∧
      TabStop.arguments? "$\x7b1:a, $\x7b2:b\x7d)".toList = some [⟨1, "a, $\x7b2:b"⟩] := by
  intro one two
  have hname : '(' ∉ "f".toList := by decide
  have hone : one.Enclosed := List.forall_mem_singleton.mpr (by decide)
  have htwo : two.Enclosed := by
    show ∀ p ∈ ["a", "b"], '\x7d' ∉ p.toList
    decide
  obtain ⟨hiff, hcall⟩ := snippet_tells_parts
  have hne : ¬ ("f" = "f" ∧ one = two) := by decide
  have htext : one.snippet "f" = "f($\x7b1:a, $\x7b2:b\x7d)" := by decide
  obtain ⟨tail, hsnippet, hread⟩ := hcall "f" ["a, $\x7b2:b"] hone
  refine ⟨hname, hone, htwo, mt (hiff _ _ _ _ hname hname hone htwo).mp hne, htext, ?_⟩
  refine (hread _).mpr ?_
  have hsnippet : (one.snippet "f").toList = ['f'] ++ '(' :: tail := hsnippet
  rw [htext] at hsnippet
  exact (List.cons.inj (List.cons.inj hsnippet).2).2

-- A parameter that closes its placeholder is taken for two.
example : (call ["a\x7d, $\x7b2:b"]).snippet "f" = (call ["a", "b"]).snippet "f" := by decide

end Insertion

end Lineage
