import Lineage.Json.Document
import Lineage.Proofs.Json.Lexeme

/-!
# How tokens are spelled

A text spells tokens if it consists of their spellings, in their order, with blanks anywhere between
them. It is lexed to these tokens, as long as each number among them is followed by a token that
ends a value, if by any: two numbers without a blank between them would be one.
-/

namespace Lineage.Json

inductive Token.Spelled : Token → List Char → Prop
  | openBracket : Spelled .openBracket ['[']
  | closeBracket : Spelled .closeBracket [']']
  | openBrace : Spelled .openBrace ['\x7b']
  | closeBrace : Spelled .closeBrace ['\x7d']
  | comma : Spelled .comma [',']
  | colon : Spelled .colon [':']
  | null : Spelled .null ['n', 'u', 'l', 'l']
  | true : Spelled (.bool true) ['t', 'r', 'u', 'e']
  | false : Spelled (.bool false) ['f', 'a', 'l', 's', 'e']
  | number {n : Number} {text : List Char} (h : n.Spelled text) : Spelled (.number n) text
  | string {us : List StringUnit} {text : List Char} (h : SpellsUnits us text) :
    Spelled (.string ⟨us, .closed⟩) ('"' :: (text ++ ['"']))

inductive Spells : List Token → List Char → Prop
  | nil : Spells [] []
  | blank {ts : List Token} {c : Char} {cs : List Char} (hc : isBlank c = true)
    (h : Spells ts cs) : Spells ts (c :: cs)
  | token {t : Token} {ts : List Token} {w cs : List Char} (ht : t.Spelled w) (h : Spells ts cs) :
    Spells (t :: ts) (w ++ cs)

theorem Spells.blanks {ts : List Token} {blanks cs : List Char}
    (hblanks : ∀ c ∈ blanks, isBlank c = true) (h : Spells ts cs) : Spells ts (blanks ++ cs) := by
  induction blanks with
  | nil => exact h
  | cons c blanks ih =>
    obtain ⟨hc, hrest⟩ := List.forall_mem_cons.mp hblanks
    exact .blank hc (ih hrest)

/-- The tokens of a text given as characters. -/
def lexed (cs : List Char) : List Token := (lexAll #[] cs).toList

theorem lexAll_cons (done : Array Token) (c : Char) (cs : List Char) :
    lexAll done (c :: cs) =
      if isBlank c then lexAll done cs
      else lexAll (done.push (lexToken c cs).1) (lexToken c cs).2 := by
  rw [lexAll]

/-- The tokens in front do not change those behind. -/
theorem toList_lexAll (done : Array Token) (cs : List Char) :
    (lexAll done cs).toList = done.toList ++ lexed cs := by
  unfold lexed
  induction hn : cs.length using Nat.strongRecOn generalizing done cs with
  | _ n ih =>
    subst hn
    cases cs with
    | nil => simp [lexAll]
    | cons c cs =>
      rw [lexAll_cons, lexAll_cons]
      split
      · exact ih cs.length (Nat.lt_succ_self _) done cs rfl
      · have hlt : (lexToken c cs).2.length < (c :: cs).length :=
          Nat.lt_succ_of_le (length_lexToken_le c cs)
        rw [ih _ hlt _ _ rfl, ih _ hlt (#[].push _) _ rfl]
        simp

theorem lexed_nil : lexed [] = [] := by
  rw [lexed, lexAll]

theorem lexed_cons (c : Char) (cs : List Char) :
    lexed (c :: cs) =
      if isBlank c then lexed cs else (lexToken c cs).1 :: lexed (lexToken c cs).2 := by
  rw [lexed, lexAll_cons]
  split
  · rfl
  · rw [toList_lexAll]
    rfl

theorem lexToken_digit {d : Char} (hd : d.isDigit = true) (cs : List Char) :
    lexToken d cs = lexNumberToken false (d :: cs) := by
  simp [lexToken, ne_of_isDigit hd, hd]

theorem isBlank_digit {d : Char} (hd : d.isDigit = true) : isBlank d = false := by
  simp [isBlank, ne_of_isDigit hd]

theorem lexed_number {n : Number} {text rest : List Char} (h : n.Spelled text)
    (hrest : EndsNumber rest) : lexed (text ++ rest) = .number n :: lexed rest := by
  obtain ⟨d, digits, hd, rfl, hlex⟩ := h.exists_lexNumber
  have hnumber : lexNumberToken n.negative (d :: (digits ++ rest)) = (.number n, rest) := by
    rw [lexNumberToken, hlex hrest]
  cases hn : n.negative with
  | false =>
    rw [hn] at hnumber
    rw [minus, List.nil_append, List.cons_append, lexed_cons, isBlank_digit hd, lexToken_digit hd,
      hnumber]
    rfl
  | true =>
    rw [hn] at hnumber
    have htoken : lexToken '-' (d :: (digits ++ rest)) = (.number n, rest) := hnumber
    rw [minus, List.singleton_append, List.cons_append, List.cons_append, lexed_cons, htoken]
    rfl

theorem Token.Spelled.lexed {t : Token} {w rest : List Char} (h : t.Spelled w)
    (hrest : ∀ n, t = .number n → EndsNumber rest) :
    Json.lexed (w ++ rest) = t :: Json.lexed rest := by
  cases h with
  | number h => exact lexed_number h (hrest _ rfl)
  | string h =>
    have hstring : lexToken '"' (_ ++ '"' :: rest) = (.string ⟨_, .closed⟩, rest) :=
      congrArg (fun p => (Token.string p.1, p.2)) (h.lexString [] rest)
    rw [List.cons_append, List.append_assoc, List.singleton_append, lexed_cons, hstring]
    rfl
  | _ => simp [lexed_cons, isBlank, lexToken, lexWord]

/-- A token that may stand behind a value. -/
def Token.endsValue : Token → Bool
  | comma | closeBracket | closeBrace => true
  | _ => false

/-- Each number is followed by a token that ends it, or by nothing. -/
def Separate : List Token → Prop
  | [] => True
  | .number _ :: ts => (∀ t ∈ ts.head?, t.endsValue = true) ∧ Separate ts
  | _ :: ts => Separate ts

theorem Separate.tail {t : Token} {ts : List Token} (h : Separate (t :: ts)) : Separate ts := by
  cases t with
  | number n => exact h.2
  | _ => exact h

theorem Spells.endsNumber {ts : List Token} {cs : List Char} (h : Spells ts cs)
    (hts : ∀ t ∈ ts.head?, t.endsValue = true) : EndsNumber cs := by
  cases h with
  | nil => trivial
  | blank hc _ =>
    simp only [isBlank, Bool.or_eq_true, decide_eq_true_eq] at hc
    rcases hc with ((rfl | rfl) | rfl) | rfl <;> exact ⟨rfl, by decide⟩
  | token ht _ =>
    cases ht with
    | comma | closeBracket | closeBrace => exact ⟨rfl, by decide⟩
    | _ => exact nomatch hts _ rfl

theorem Spells.lexed {ts : List Token} {cs : List Char} (h : Spells ts cs) (hts : Separate ts) :
    Json.lexed cs = ts := by
  induction h with
  | nil => exact lexed_nil
  | blank hc _ ih => rw [lexed_cons, if_pos hc, ih hts]
  | token ht h ih =>
    rw [ht.lexed, ih hts.tail]
    rintro n rfl
    exact h.endsNumber hts.1

/-! ## Texts that have been lexed -/

/-- A token in which nothing goes wrong. -/
def Token.Good : Token → Prop
  | brokenNull _ | brokenBool _ | brokenNumber _ | junk => False
  | string s => s.ending = .closed
  | _ => True

theorem eq_append_of_lexWord {whole t : Token} {broken : Bool → Token}
    {expected cs rest : List Char} (hbroken : ∀ atEnd, ¬ (broken atEnd).Good)
    (h : lexWord whole broken expected cs = (t, rest)) (ht : t.Good) :
    t = whole ∧ cs = expected ++ rest := by
  fun_induction lexWord whole broken expected cs with
  | case1 cs =>
    cases h
    exact ⟨rfl, rfl⟩
  | case2 =>
    cases h
    exact absurd ht (hbroken true)
  | case3 e es cs ih =>
    obtain ⟨rfl, rfl⟩ := ih h
    exact ⟨rfl, rfl⟩
  | case4 =>
    cases h
    exact absurd ht (hbroken false)

theorem exists_spelled_of_lexNumberToken {negative : Bool} {cs rest : List Char} {t : Token}
    (h : lexNumberToken negative cs = (t, rest)) (ht : t.Good) :
    ∃ text, t.Spelled (minus negative ++ text) ∧ cs = text ++ rest := by
  unfold lexNumberToken at h
  split at h
  next n rest' hlex =>
    cases h
    obtain ⟨text, hn, hcs⟩ := exists_spelled_of_lexNumber hlex
    exact ⟨text, .number hn, hcs⟩
  next =>
    cases h
    cases ht

/-- A good token has been spelled. -/
theorem exists_spelled_of_lexToken {c : Char} {cs rest : List Char} {t : Token}
    (h : lexToken c cs = (t, rest)) (ht : t.Good) : ∃ w, t.Spelled w ∧ c :: cs = w ++ rest := by
  unfold lexToken at h
  by_cases hopenBracket : c = '['
  · subst hopenBracket
    obtain ⟨rfl, rfl⟩ := Prod.mk.inj h
    exact ⟨_, .openBracket, rfl⟩
  rw [if_neg hopenBracket] at h
  by_cases hcloseBracket : c = ']'
  · subst hcloseBracket
    obtain ⟨rfl, rfl⟩ := Prod.mk.inj h
    exact ⟨_, .closeBracket, rfl⟩
  rw [if_neg hcloseBracket] at h
  by_cases hopenBrace : c = '\x7b'
  · subst hopenBrace
    obtain ⟨rfl, rfl⟩ := Prod.mk.inj h
    exact ⟨_, .openBrace, rfl⟩
  rw [if_neg hopenBrace] at h
  by_cases hcloseBrace : c = '\x7d'
  · subst hcloseBrace
    obtain ⟨rfl, rfl⟩ := Prod.mk.inj h
    exact ⟨_, .closeBrace, rfl⟩
  rw [if_neg hcloseBrace] at h
  by_cases hcomma : c = ','
  · subst hcomma
    obtain ⟨rfl, rfl⟩ := Prod.mk.inj h
    exact ⟨_, .comma, rfl⟩
  rw [if_neg hcomma] at h
  by_cases hcolon : c = ':'
  · subst hcolon
    obtain ⟨rfl, rfl⟩ := Prod.mk.inj h
    exact ⟨_, .colon, rfl⟩
  rw [if_neg hcolon] at h
  by_cases hquote : c = '"'
  · subst hquote
    rcases hlex : lexString [] cs with ⟨⟨us, ending⟩, rest'⟩
    rw [if_pos rfl, hlex] at h
    cases h
    cases (show ending = .closed from ht)
    obtain ⟨new, text, rfl, hnew, rfl⟩ := exists_spellsUnits hlex
    refine ⟨_, .string hnew, ?_⟩
    rw [List.cons_append, List.append_assoc, List.singleton_append]
  rw [if_neg hquote] at h
  by_cases hnull : c = 'n'
  · subst hnull
    obtain ⟨rfl, rfl⟩ := eq_append_of_lexWord (fun _ => id) h ht
    exact ⟨_, .null, rfl⟩
  rw [if_neg hnull] at h
  by_cases htrue : c = 't'
  · subst htrue
    obtain ⟨rfl, rfl⟩ := eq_append_of_lexWord (fun _ => id) h ht
    exact ⟨_, .true, rfl⟩
  rw [if_neg htrue] at h
  by_cases hfalse : c = 'f'
  · subst hfalse
    obtain ⟨rfl, rfl⟩ := eq_append_of_lexWord (fun _ => id) h ht
    exact ⟨_, .false, rfl⟩
  rw [if_neg hfalse] at h
  by_cases hminus : c = '-'
  · subst hminus
    obtain ⟨text, hspelled, rfl⟩ := exists_spelled_of_lexNumberToken h ht
    exact ⟨_, hspelled, rfl⟩
  rw [if_neg hminus] at h
  split at h
  · exact exists_spelled_of_lexNumberToken h ht
  · cases h
    cases ht

theorem spells_lexed {cs : List Char} (h : ∀ t ∈ lexed cs, t.Good) : Spells (lexed cs) cs := by
  induction hn : cs.length using Nat.strongRecOn generalizing cs with
  | _ n ih =>
    subst hn
    cases cs with
    | nil =>
      rw [lexed_nil]
      exact .nil
    | cons c cs =>
      rw [lexed_cons] at h ⊢
      split at h
      next hc =>
        rw [if_pos hc]
        exact .blank hc (ih cs.length (Nat.lt_succ_self _) h rfl)
      next hc =>
        obtain ⟨hgood, hrest⟩ := List.forall_mem_cons.mp h
        obtain ⟨w, hw, hcs⟩ := exists_spelled_of_lexToken rfl hgood
        have hlt : (lexToken c cs).2.length < (c :: cs).length :=
          Nat.lt_succ_of_le (length_lexToken_le c cs)
        rw [if_neg hc, hcs]
        exact .token hw (ih _ hlt hrest rfl)

end Lineage.Json
