import Mathlib.Data.List.Basic
import Mathlib.Data.List.TakeWhile
import Lineage.Json.Reader
import Lineage.Json.Value
import Lineage.Proofs.Basic

/-!
# How strings and numbers are spelled

The spellings of a string and of a number, by the grammar of JSON. A character of a string may be
spelled in several ways, and so may an exponent; the lexer takes what has been spelled up to its end
and no further: a string ends at its closing quote, a number where something stands that cannot be a
part of it.

What is written is spelled in one of these ways. The units of a string are its characters, but for
control characters without a short escape, which come back as UTF-16 units; the text they stand for
is the same.
-/

namespace Lineage.Json

inductive StringUnit.Spelled : StringUnit → List Char → Prop
  | char {c : Char} (hquote : c ≠ '"') (hslash : c ≠ '\\') (hcontrol : ¬ c < ' ') :
    Spelled (.char c) [c]
  | shortEscape {e c : Char} (h : shortEscape? e = some c) : Spelled (.char c) ['\\', e]
  | hexEscape {w x y z : Char} {n : Nat} (h : hexUnit? w x y z = some n) :
    Spelled (.escaped n) ['\\', 'u', w, x, y, z]

/-- What stands between the quotes of a string with these units. -/
inductive SpellsUnits : List StringUnit → List Char → Prop
  | nil : SpellsUnits [] []
  | cons {u : StringUnit} {us : List StringUnit} {w cs : List Char} (hu : u.Spelled w)
    (hus : SpellsUnits us cs) : SpellsUnits (u :: us) (w ++ cs)

theorem ne_u_of_shortEscape? {e c : Char} (h : shortEscape? e = some c) : e ≠ 'u' := by
  rintro rfl
  cases h

theorem lexString_quote (done : List StringUnit) (cs : List Char) :
    lexString done ('"' :: cs) = (⟨done.reverse, .closed⟩, cs) := by
  rw [lexString.eq_def]
  simp

theorem StringUnit.Spelled.lexString {u : StringUnit} {w : List Char} (h : u.Spelled w)
    (done : List StringUnit) (cs : List Char) :
    Json.lexString done (w ++ cs) = Json.lexString (u :: done) cs := by
  cases h with
  | char hquote hslash hcontrol =>
    rw [List.singleton_append, Json.lexString.eq_def]
    simp [hquote, hslash, hcontrol]
  | shortEscape h =>
    rw [List.cons_append, List.singleton_append, Json.lexString.eq_def]
    simp [ne_u_of_shortEscape? h, h]
  | hexEscape h =>
    simp only [List.cons_append, List.nil_append]
    rw [Json.lexString.eq_def]
    simp [h]

theorem SpellsUnits.lexString {us : List StringUnit} {cs : List Char} (h : SpellsUnits us cs)
    (done : List StringUnit) (rest : List Char) :
    Json.lexString done (cs ++ '"' :: rest) = (⟨done.reverse ++ us, .closed⟩, rest) := by
  induction h generalizing done with
  | nil => rw [List.nil_append, lexString_quote, List.append_nil]
  | cons hu _ ih =>
    rw [List.append_assoc, hu.lexString, ih, List.reverse_cons, List.append_assoc,
      List.singleton_append]

theorem hexEnd_ne_closed (cs : List Char) : hexEnd cs ≠ .closed := by
  unfold hexEnd
  split <;> nofun

/-- What has been lexed of a string up to its closing quote has been spelled. -/
theorem exists_spellsUnits {done us : List StringUnit} {cs rest : List Char}
    (h : lexString done cs = (⟨us, .closed⟩, rest)) :
    ∃ new text, us = done.reverse ++ new ∧ SpellsUnits new text ∧ cs = text ++ '"' :: rest := by
  have hunit {done us : List StringUnit} {cs rest w : List Char} {u : StringUnit}
      (hu : u.Spelled w) (ih : ∃ new text, us = (u :: done).reverse ++ new ∧
        SpellsUnits new text ∧ cs = text ++ '"' :: rest) :
      ∃ new text, us = done.reverse ++ new ∧ SpellsUnits new text ∧
        w ++ cs = text ++ '"' :: rest := by
    obtain ⟨new, text, rfl, hnew, rfl⟩ := ih
    refine ⟨u :: new, w ++ text, ?_, .cons hu hnew, (List.append_assoc _ _ _).symm⟩
    rw [List.reverse_cons, List.append_assoc, List.singleton_append]
  fun_induction lexString done cs with
  | case2 done cs =>
    cases h
    exact ⟨[], [], (List.append_nil _).symm, .nil, rfl⟩
  | case4 done w x y z cs n hn _ ih => exact hunit (.hexEscape hn) (ih h)
  | case6 done cs _ _ => exact absurd (congrArg (fun p => p.1.ending) h) (hexEnd_ne_closed cs)
  | case7 done e cs _ c hc _ ih => exact hunit (.shortEscape hc) (ih h)
  | case10 done c cs hquote hslash hcontrol ih => exact hunit (.char hquote hslash hcontrol) (ih h)
  | _ => cases h

/-! ## Strings that have been written -/

/-- The control characters that have an escape of their own. -/
def shortControls : List Char := ['\x08', '\x0c', '\n', '\r', '\t']

/-- The unit that is lexed where `c` has been written. -/
def StringUnit.written (c : Char) : StringUnit :=
  if c < ' ' ∧ c ∉ shortControls then .escaped c.toNat else .char c

def StringLexeme.written (s : String) : StringLexeme := ⟨s.toList.map .written, .closed⟩

theorem hexUnit?_hexDigit :
    ∀ n < 32, hexUnit? '0' '0' (hexDigit (n / 16)) (hexDigit (n % 16)) = some n := by
  decide

theorem spelled_written (c : Char) : (StringUnit.written c).Spelled (escapeChar c) := by
  unfold escapeChar
  split
  · subst c; exact .shortEscape rfl
  split
  · subst c; exact .shortEscape rfl
  split
  · subst c; exact .shortEscape rfl
  split
  · subst c; exact .shortEscape rfl
  split
  · subst c; exact .shortEscape rfl
  split
  · subst c; exact .shortEscape rfl
  split
  · subst c; exact .shortEscape rfl
  next hquote hslash hb hf hn hr ht =>
    have hplain : c ∉ shortControls := by simp [shortControls, hb, hf, hn, hr, ht]
    by_cases hcontrol : c < ' '
    · rw [if_pos hcontrol, StringUnit.written, if_pos ⟨hcontrol, hplain⟩]
      exact .hexEscape (hexUnit?_hexDigit c.toNat hcontrol)
    · rw [if_neg hcontrol, StringUnit.written, if_neg (mt And.left hcontrol)]
      exact .char hquote hslash hcontrol

theorem spellsUnits_written (cs : List Char) :
    SpellsUnits (cs.map .written) (cs.flatMap escapeChar) := by
  induction cs with
  | nil => exact .nil
  | cons c cs ih => exact .cons (spelled_written c) ih

theorem decodeUnits_written (done cs : List Char) :
    decodeUnits .closed done (cs.map .written) = .ok (done.reverse ++ cs) := by
  induction cs generalizing done with
  | nil => simp [decodeUnits, StringEnd.fault?]
  | cons c cs ih =>
    have hnext : decodeUnits .closed (c :: done) (cs.map .written) =
        .ok (done.reverse ++ c :: cs) := by
      rw [ih, List.reverse_cons, List.append_assoc, List.singleton_append]
    rw [List.map_cons, StringUnit.written]
    split
    · next hcontrol =>
      have hlt : c.toNat < 32 := hcontrol.1
      have hlow : isLowSurrogate c.toNat = false := by simp [isLowSurrogate]; omega
      have hhigh : isHighSurrogate c.toNat = false := by simp [isHighSurrogate]; omega
      rw [decodeUnits.eq_def]
      simpa [hlow, hhigh] using hnext
    · exact hnext

/-- A string that has been written stands for itself. -/
theorem StringLexeme.read_written (s : String) : (written s).read = .ok s := by
  simp [read, text, written, decodeUnits_written, Except.map, Except.mapError]

/-! ## Numbers -/

/-- At least one digit. -/
structure Digits (cs : List Char) : Prop where
  ne_nil : cs ≠ []
  isDigit : ∀ c ∈ cs, c.isDigit = true

inductive SpellsFraction : List Char → List Char → Prop
  | none : SpellsFraction [] []
  | point {digits : List Char} (h : Digits digits) : SpellsFraction digits ('.' :: digits)

/-- The sign of an exponent; a plus may be left out. -/
inductive SpellsSign : Bool → List Char → Prop
  | none : SpellsSign false []
  | plus : SpellsSign false ['+']
  | minus : SpellsSign true ['-']

inductive SpellsExponent : Option (Bool × List Char) → List Char → Prop
  | none : SpellsExponent none []
  | some {e : Char} {negative : Bool} {sign digits : List Char} (he : e = 'e' ∨ e = 'E')
    (hsign : SpellsSign negative sign) (h : Digits digits) :
    SpellsExponent (some (negative, digits)) (e :: (sign ++ digits))

/-- The sign of a number. -/
def minus : Bool → List Char
  | true => ['-']
  | false => []

/-- No digit stands behind a zero in front of the point. -/
inductive Number.Spelled : Number → List Char → Prop
  | intro {negative : Bool} {whole fraction fractionText exponentText : List Char}
    {exponent : Option (Bool × List Char)} (hwhole : Digits whole)
    (hzero : ∀ d ds, whole ≠ '0' :: d :: ds) (hfraction : SpellsFraction fraction fractionText)
    (hexponent : SpellsExponent exponent exponentText) :
    Spelled ⟨negative, whole, fraction, exponent⟩
      (minus negative ++ (whole ++ (fractionText ++ exponentText)))

/-- What may stand behind digits. -/
def EndsDigits (cs : List Char) : Prop := ∀ c ∈ cs.head?, c.isDigit = false

/-- What may stand behind the fraction of a number. -/
def EndsFraction (cs : List Char) : Prop := ∀ c ∈ cs.head?, c.isDigit = false ∧ c ≠ '.'

/-- What may stand behind a number: nothing that could be a part of it. -/
def EndsNumber : List Char → Prop
  | [] => True
  | c :: _ => c.isDigit = false ∧ c ≠ '.' ∧ c ≠ 'e' ∧ c ≠ 'E'

section
variable {digits text rest : List Char}

theorem Digits.append_eq_cons (h : Digits digits) (rest : List Char) :
    ∃ d ds, digits ++ rest = d :: ds ∧ d.isDigit = true := by
  obtain ⟨d, ds, rfl⟩ := List.exists_cons_of_ne_nil h.ne_nil
  exact ⟨d, ds ++ rest, List.cons_append, h.isDigit d List.mem_cons_self⟩

theorem ne_of_isDigit {d c : Char} (hd : d.isDigit = true) (hc : c.isDigit = false) : d ≠ c := by
  rintro rfl
  rw [hd] at hc
  cases hc

theorem EndsNumber.endsFraction (h : EndsNumber rest) : EndsFraction rest := by
  cases rest with
  | nil => nofun
  | cons c cs =>
    rintro _ ⟨⟩
    exact ⟨h.1, h.2.1⟩

theorem EndsFraction.endsDigits (h : EndsFraction rest) : EndsDigits rest :=
  fun c hc => (h c hc).1

theorem SpellsExponent.endsFraction {exponent : Option (Bool × List Char)}
    (h : SpellsExponent exponent text) (hrest : EndsNumber rest) : EndsFraction (text ++ rest) := by
  cases h with
  | none => exact hrest.endsFraction
  | some he _ _ =>
    rintro _ ⟨⟩
    rcases he with rfl | rfl <;> decide

theorem SpellsFraction.endsDigits {fraction : List Char} (h : SpellsFraction fraction text)
    (hrest : EndsFraction rest) : EndsDigits (text ++ rest) := by
  cases h with
  | none => exact hrest.endsDigits
  | point _ =>
    rintro _ ⟨⟩
    rfl

theorem lexDigits_append (hdigits : ∀ c ∈ digits, c.isDigit = true) (h : EndsDigits rest) :
    lexDigits (digits ++ rest) = (digits, rest) := by
  unfold lexDigits
  rw [List.takeWhile_append_of_pos hdigits, List.dropWhile_append_of_pos hdigits]
  cases rest with
  | nil => simp
  | cons c cs => simp [h c rfl]

theorem Digits.lexDigits1 (hdigits : Digits digits) (h : EndsDigits rest) :
    Json.lexDigits1 (digits ++ rest) = .ok (digits, rest) := by
  obtain ⟨d, ds, rfl⟩ := List.exists_cons_of_ne_nil hdigits.ne_nil
  unfold Json.lexDigits1
  rw [lexDigits_append hdigits.isDigit h]

theorem Digits.lexWhole (hdigits : Digits digits) (hzero : ∀ d ds, digits ≠ '0' :: d :: ds)
    (h : EndsDigits rest) : Json.lexWhole (digits ++ rest) = .ok (digits, rest) := by
  unfold Json.lexWhole
  rw [hdigits.lexDigits1 h]
  split
  · next d ds rest' heq =>
    cases heq
    exact absurd rfl (hzero d ds)
  · rfl

theorem SpellsFraction.lexFraction {fraction : List Char} (h : SpellsFraction fraction text)
    (hrest : EndsFraction rest) : Json.lexFraction (text ++ rest) = .ok (fraction, rest) := by
  cases h with
  | none =>
    rw [List.nil_append]
    unfold Json.lexFraction
    split
    · exact absurd rfl (hrest '.' rfl).2
    · rfl
  | point hdigits => exact hdigits.lexDigits1 hrest.endsDigits

theorem SpellsSign.lexSign {negative : Bool} (h : SpellsSign negative text)
    (hdigits : Digits digits) :
    Json.lexSign (text ++ (digits ++ rest)) = (negative, digits ++ rest) := by
  cases h with
  | none =>
    obtain ⟨d, ds, heq, hd⟩ := hdigits.append_eq_cons rest
    rw [List.nil_append, heq]
    unfold Json.lexSign
    split
    · next hminus => exact absurd (List.cons.inj hminus).1 (ne_of_isDigit hd rfl)
    · next hplus => exact absurd (List.cons.inj hplus).1 (ne_of_isDigit hd rfl)
    · rfl
  | plus => rfl
  | minus => rfl

theorem SpellsExponent.lexExponent {exponent : Option (Bool × List Char)}
    (h : SpellsExponent exponent text) (hrest : EndsNumber rest) :
    Json.lexExponent (text ++ rest) = .ok (exponent, rest) := by
  cases h with
  | none =>
    cases rest with
    | nil => rfl
    | cons c cs =>
      rw [List.nil_append, Json.lexExponent, if_neg]
      exact not_or.mpr hrest.2.2
  | some he hsign hdigits =>
    rw [List.cons_append, List.append_assoc, Json.lexExponent, if_pos he,
      hsign.lexSign hdigits]
    simp only [hdigits.lexDigits1 hrest.endsFraction.endsDigits, bind, Except.bind]
    rfl

end

/-- A number that is spelled is lexed, after its sign has been taken off. -/
theorem Number.Spelled.exists_lexNumber {n : Number} {text : List Char} (h : n.Spelled text) :
    ∃ d digits, d.isDigit = true ∧
      text = minus n.negative ++ d :: digits ∧
      ∀ {rest : List Char}, EndsNumber rest →
        lexNumber n.negative (d :: (digits ++ rest)) = .ok (n, rest) := by
  obtain ⟨hwhole, hzero, hfraction, hexponent⟩ := h
  next negative whole fraction fractionText exponentText exponent =>
  obtain ⟨d, ds, heq, hd⟩ := hwhole.append_eq_cons (fractionText ++ exponentText)
  refine ⟨d, ds, hd, by rw [heq], fun {rest} hrest => ?_⟩
  have hfront := hexponent.endsFraction hrest
  rw [← List.cons_append, ← heq, List.append_assoc, List.append_assoc]
  unfold lexNumber
  simp only [hwhole.lexWhole hzero (hfraction.endsDigits hfront), hfraction.lexFraction hfront,
    hexponent.lexExponent hrest, bind, Except.bind]
  rfl

/-! ### Numbers that have been lexed -/

section
variable {cs rest digits : List Char}

theorem digits_of_lexDigits1 (h : lexDigits1 cs = .ok (digits, rest)) :
    Digits digits ∧ cs = digits ++ rest := by
  unfold lexDigits1 lexDigits at h
  split at h
  · cases h
  next hne heq =>
    cases h
    obtain ⟨rfl, rfl⟩ := Prod.mk.inj heq
    exact ⟨⟨hne, fun c hc => List.mem_takeWhile_imp hc⟩, List.takeWhile_append_dropWhile.symm⟩

theorem digits_of_lexWhole (h : lexWhole cs = .ok (digits, rest)) :
    Digits digits ∧ (∀ d ds, digits ≠ '0' :: d :: ds) ∧ cs = digits ++ rest := by
  unfold lexWhole at h
  split at h
  · cases h
  next hne =>
    obtain ⟨hdigits, rfl⟩ := digits_of_lexDigits1 h
    refine ⟨hdigits, ?_, rfl⟩
    rintro d ds rfl
    exact hne d ds rest h

theorem exists_spellsFraction (h : lexFraction cs = .ok (digits, rest)) :
    ∃ text, SpellsFraction digits text ∧ cs = text ++ rest := by
  unfold lexFraction at h
  split at h
  · obtain ⟨hdigits, rfl⟩ := digits_of_lexDigits1 h
    exact ⟨_, .point hdigits, rfl⟩
  · cases h
    exact ⟨[], .none, rfl⟩

theorem exists_spellsSign (cs : List Char) :
    ∃ text, SpellsSign (lexSign cs).1 text ∧ cs = text ++ (lexSign cs).2 := by
  unfold lexSign
  split
  · exact ⟨_, .minus, rfl⟩
  · exact ⟨_, .plus, rfl⟩
  · exact ⟨_, .none, rfl⟩

theorem exists_spellsExponent {exponent : Option (Bool × List Char)}
    (h : lexExponent cs = .ok (exponent, rest)) :
    ∃ text, SpellsExponent exponent text ∧ cs = text ++ rest := by
  unfold lexExponent at h
  split at h
  · cases h
    exact ⟨[], .none, rfl⟩
  next e cs =>
    split at h
    next he =>
      obtain ⟨sign, hsign, hcs⟩ := exists_spellsSign cs
      cases hdigits : lexDigits1 (lexSign cs).2 with
      | error _ => simp [hdigits, bind, Except.bind] at h
      | ok r =>
        obtain ⟨hd, hrest⟩ := digits_of_lexDigits1 hdigits
        simp only [hdigits, bind, Except.bind] at h
        cases h
        refine ⟨e :: (sign ++ r.1), .some he hsign hd, ?_⟩
        rw [List.cons_append, List.append_assoc, ← hrest, ← hcs]
    next =>
      cases h
      exact ⟨[], .none, rfl⟩

/-- What has been lexed as a number has been spelled. -/
theorem exists_spelled_of_lexNumber {negative : Bool} {n : Number}
    (h : lexNumber negative cs = .ok (n, rest)) :
    ∃ text, n.Spelled (minus negative ++ text) ∧ cs = text ++ rest := by
  unfold lexNumber at h
  cases hwhole : lexWhole cs with
  | error _ => simp [hwhole, bind, Except.bind] at h
  | ok whole =>
    simp only [hwhole, bind, Except.bind] at h
    cases hfraction : lexFraction whole.2 with
    | error _ => simp [hfraction] at h
    | ok fraction =>
      simp only [hfraction] at h
      cases hexponent : lexExponent fraction.2 with
      | error _ => simp [hexponent] at h
      | ok exponent =>
        simp only [hexponent] at h
        cases h
        obtain ⟨hdigits, hzero, rfl⟩ := digits_of_lexWhole hwhole
        obtain ⟨_, hspellsFraction, hrest⟩ := exists_spellsFraction hfraction
        obtain ⟨_, hspellsExponent, hrest'⟩ := exists_spellsExponent hexponent
        refine ⟨_, .intro hdigits hzero hspellsFraction hspellsExponent, ?_⟩
        rw [hrest, hrest', List.append_assoc, List.append_assoc]

end

/-! ### Numbers that have been written -/

def Number.written (n : Nat) : Number := { negative := false, whole := Nat.toDigits 10 n }

/-- Only zero is written with a zero in front. -/
theorem eq_zero_of_head?_toDigits {n : Nat} (h : (Nat.toDigits 10 n).head? = some '0') : n = 0 := by
  induction n using Nat.strongRecOn with
  | _ n ih =>
    rcases Nat.lt_or_ge n 10 with hsmall | hlarge
    · have hdigit : ∀ d < 10, Nat.digitChar d = '0' → d = 0 := by decide
      rw [Nat.toDigits_of_lt_base hsmall, List.head?_cons, Option.some_inj] at h
      exact hdigit n hsmall h
    · rw [Nat.toDigits_of_base_le (by decide) hlarge,
        List.head?_append_of_ne_nil _ Nat.toDigits_ne_nil] at h
      have hfront := ih (n / 10) (by omega) h
      omega

theorem toDigits_ne_zero_cons (n : Nat) (d : Char) (ds : List Char) :
    Nat.toDigits 10 n ≠ '0' :: d :: ds := by
  intro h
  have hzero : n = 0 := eq_zero_of_head?_toDigits (by rw [h, List.head?_cons])
  rw [hzero, Nat.toDigits_zero] at h
  cases h

theorem digits_toDigits (n : Nat) : Digits (Nat.toDigits 10 n) where
  ne_nil := Nat.toDigits_ne_nil
  isDigit := Decimal.isDigit_of_mem_digits

theorem Number.spelled_written (n : Nat) : (Number.written n).Spelled (Nat.toDigits 10 n) := by
  have h : (Number.written n).Spelled ([] ++ (Nat.toDigits 10 n ++ ([] ++ []))) :=
    .intro (digits_toDigits n) (toDigits_ne_zero_cons n) .none .none
  rwa [List.append_nil, List.append_nil] at h

end Lineage.Json
