import Lineage.Json.Document
import Lineage.Json.Reader
import Lineage.Proofs.Json.Spelling

/-!
# Sound documents

A document is sound if nothing in it goes wrong. It is written as a text that spells its tokens, and
each such text is read as this document and nothing else: the tokens of a value build it up,
whatever containers it stands in.
-/

namespace Lineage.Json.Doc

inductive Sound : Doc → Prop
  | null : Sound .null
  | bool (b : Bool) : Sound (.bool b)
  | number (n : Number) : Sound (.number n)
  | string (us : List StringUnit) : Sound (.string ⟨us, .closed⟩)
  | array {items : List Doc} (hitems : ∀ d ∈ items, Sound d) : Sound (.array items .closed)
  | object {entries : List (StringLexeme × Doc)} (hkeys : ∀ e ∈ entries, e.1.ending = .closed)
    (hvalues : ∀ e ∈ entries, Sound e.2) : Sound (.object entries .closed)

mutual

/-- The tokens of a sound document. -/
def tokens : Doc → List Token
  | null => [.null]
  | bool b => [.bool b]
  | number n => [.number n]
  | string s => [.string s]
  | array [] _ => [.openBracket, .closeBracket]
  | array (d :: ds) _ => .openBracket :: (d.tokens ++ (itemTokens ds ++ [.closeBracket]))
  | object [] _ => [.openBrace, .closeBrace]
  | object ((key, d) :: es) _ =>
    .openBrace :: .string key :: .colon :: (d.tokens ++ (entryTokens es ++ [.closeBrace]))
  | absent | garbled _ | noColon _ => []

/-- The tokens of the items after the first. -/
def itemTokens : List Doc → List Token
  | [] => []
  | d :: ds => .comma :: (d.tokens ++ itemTokens ds)

/-- The tokens of the entries after the first. -/
def entryTokens : List (StringLexeme × Doc) → List Token
  | [] => []
  | (key, d) :: es => .comma :: .string key :: .colon :: (d.tokens ++ entryTokens es)

end

/-- The text is valid JSON, and this document is what it says. -/
structure WrittenAs (d : Doc) (text : String) : Prop where
  sound : d.Sound
  spells : Spells d.tokens text.toList

/-! ## Building -/

/-- Goes on building after a token. -/
def resume : Next → List Token → Doc × List Token
  | .goOn due frames, ts => build due frames ts
  | .complete d, ts => (d, ts)
  | .broken d, _ => (d, [])

theorem build_cons (due : Due) (frames : List Frame) (t : Token) (ts : List Token) :
    build due frames (t :: ts) = resume (step due frames t) ts := by
  rw [build]
  cases step due frames t <;> rfl

section
variable {d : Doc} (h : d.Sound)
include h

/-- A value begins with a token that closes nothing. -/
theorem Sound.exists_tokens_cons : ∃ t ts, d.tokens = t :: ts ∧ t ≠ .closeBracket := by
  cases h with
  | @array items _ => cases items <;> exact ⟨_, _, tokens.eq_def _, nofun⟩
  | @object entries _ _ =>
    rcases entries with _ | ⟨⟨_, _⟩, _⟩ <;> exact ⟨_, _, tokens.eq_def _, nofun⟩
  | _ => exact ⟨_, _, tokens.eq_def _, nofun⟩

variable (frames : List Frame) (ts : List Token)

theorem Sound.build_firstItem :
    build .firstItem frames (d.tokens ++ ts) =
      build .value (.array [] :: frames) (d.tokens ++ ts) := by
  obtain ⟨t, more, hd, ht⟩ := h.exists_tokens_cons
  rw [hd, List.cons_append, build_cons, build_cons]
  cases t <;> first | rfl | exact absurd rfl ht

theorem Sound.build_itemAfterComma (items : List Doc) :
    build (.itemAfterComma items) frames (d.tokens ++ ts) =
      build .value (.array items :: frames) (d.tokens ++ ts) := by
  obtain ⟨t, more, hd, ht⟩ := h.exists_tokens_cons
  rw [hd, List.cons_append, build_cons, build_cons]
  cases t <;> first | rfl | exact absurd rfl ht

end

/-- The tokens of the document build it up, and it is delivered to the frames around it. -/
def Builds (d : Doc) : Prop :=
  ∀ frames ts, build .value frames (d.tokens ++ ts) = resume (deliver d frames) ts

/-- The items after the first join those before them, and the bracket closes the array. -/
theorem build_items {ds : List Doc} (hsound : ∀ d ∈ ds, d.Sound) (h : ∀ d ∈ ds, d.Builds)
    (items : List Doc) (frames : List Frame) (ts : List Token) :
    build (.afterItem items) frames (itemTokens ds ++ .closeBracket :: ts) =
      resume (deliver (.array (items.reverse ++ ds) .closed) frames) ts := by
  induction ds generalizing items with
  | nil =>
    rw [itemTokens, List.nil_append, build_cons, List.append_nil]
    rfl
  | cons d ds ih =>
    obtain ⟨hd, hds⟩ := List.forall_mem_cons.mp hsound
    obtain ⟨hbuild, hbuilds⟩ := List.forall_mem_cons.mp h
    rw [itemTokens, List.cons_append, List.append_assoc, build_cons]
    show build (.itemAfterComma items) frames _ = _
    rw [hd.build_itemAfterComma, hbuild]
    show build (.afterItem (d :: items)) frames _ = _
    rw [ih hds hbuilds, List.reverse_cons, List.append_assoc, List.singleton_append]

theorem build_entries {es : List (StringLexeme × Doc)} (h : ∀ e ∈ es, e.2.Builds)
    (entries : List (StringLexeme × Doc)) (frames : List Frame) (ts : List Token) :
    build (.afterEntry entries) frames (entryTokens es ++ .closeBrace :: ts) =
      resume (deliver (.object (entries.reverse ++ es) .closed) frames) ts := by
  induction es generalizing entries with
  | nil =>
    rw [entryTokens, List.nil_append, build_cons, List.append_nil]
    rfl
  | cons e es ih =>
    obtain ⟨key, d⟩ := e
    obtain ⟨hbuild, hbuilds⟩ := List.forall_mem_cons.mp h
    simp only [entryTokens, List.cons_append, List.append_assoc]
    show build .value (.object entries key :: frames) _ = _
    rw [hbuild]
    show build (.afterEntry ((key, d) :: entries)) frames _ = _
    rw [ih hbuilds, List.reverse_cons, List.append_assoc, List.singleton_append]

theorem Sound.builds {d : Doc} (h : d.Sound) : d.Builds := by
  induction h with
  | null | bool | number | string =>
    intro frames ts
    rw [tokens, List.singleton_append, build_cons]
    rfl
  | @array items hitems ih =>
    intro frames ts
    cases items with
    | nil =>
      rw [tokens, List.cons_append, List.singleton_append, build_cons]
      exact build_cons _ _ _ _
    | cons d ds =>
      obtain ⟨hd, hds⟩ := List.forall_mem_cons.mp hitems
      obtain ⟨hbuild, hbuilds⟩ := List.forall_mem_cons.mp ih
      simp only [tokens, List.cons_append, List.append_assoc, List.nil_append]
      show build .firstItem frames _ = _
      rw [hd.build_firstItem, hbuild]
      exact build_items hds hbuilds [d] frames ts
  | @object entries _ _ ih =>
    intro frames ts
    cases entries with
    | nil =>
      rw [tokens, List.cons_append, List.singleton_append, build_cons]
      exact build_cons _ _ _ _
    | cons e es =>
      obtain ⟨key, d⟩ := e
      obtain ⟨hbuild, hbuilds⟩ := List.forall_mem_cons.mp ih
      simp only [tokens, List.cons_append, List.append_assoc, List.nil_append]
      show build .value (.object [] key :: frames) _ = _
      rw [hbuild]
      exact build_entries hbuilds [(key, d)] frames ts

/-- What follows a value ends it. -/
structure Ended (ts : List Token) : Prop where
  separate : Separate ts
  endsValue : ∀ t ∈ ts.head?, t.endsValue = true

theorem ended_cons {t : Token} {ts : List Token} (ht : t.endsValue = true) (h : Separate ts) :
    Ended (t :: ts) := by
  refine ⟨?_, ?_⟩
  · cases t with
    | number n => cases ht
    | _ => exact h
  · rintro _ ⟨⟩
    exact ht

/-- The numbers of a document stay apart from what follows. -/
def StaysApart (d : Doc) : Prop := ∀ ts, Ended ts → Separate (d.tokens ++ ts)

theorem ended_items {ds : List Doc} (h : ∀ d ∈ ds, d.StaysApart) {ts : List Token}
    (hts : Ended ts) : Ended (itemTokens ds ++ ts) := by
  induction ds with
  | nil => exact hts
  | cons d ds ih =>
    obtain ⟨hd, hds⟩ := List.forall_mem_cons.mp h
    rw [itemTokens, List.cons_append, List.append_assoc]
    exact ended_cons rfl (hd _ (ih hds))

theorem ended_entries {es : List (StringLexeme × Doc)} (h : ∀ e ∈ es, e.2.StaysApart)
    {ts : List Token} (hts : Ended ts) : Ended (entryTokens es ++ ts) := by
  induction es with
  | nil => exact hts
  | cons e es ih =>
    obtain ⟨key, d⟩ := e
    obtain ⟨hd, hes⟩ := List.forall_mem_cons.mp h
    simp only [entryTokens, List.cons_append, List.append_assoc]
    exact ended_cons rfl (hd _ (ih hes))

theorem Sound.staysApart {d : Doc} (h : d.Sound) : d.StaysApart := by
  induction h with
  | null | bool | string => exact fun ts hts => hts.separate
  | number => exact fun ts hts => ⟨hts.endsValue, hts.separate⟩
  | @array items _ ih =>
    intro ts hts
    cases items with
    | nil => exact hts.separate
    | cons d ds =>
      obtain ⟨hd, hds⟩ := List.forall_mem_cons.mp ih
      simp only [tokens, List.cons_append, List.append_assoc, List.nil_append]
      exact hd _ (ended_items hds (ended_cons rfl hts.separate))
  | @object entries _ _ ih =>
    intro ts hts
    cases entries with
    | nil => exact hts.separate
    | cons e es =>
      obtain ⟨key, d⟩ := e
      obtain ⟨hd, hes⟩ := List.forall_mem_cons.mp ih
      simp only [tokens, List.cons_append, List.append_assoc, List.nil_append]
      exact hd _ (ended_entries hes (ended_cons rfl hts.separate))

theorem Sound.separate {d : Doc} (h : d.Sound) : Separate d.tokens := by
  rw [← List.append_nil d.tokens]
  exact h.staysApart [] ⟨trivial, nofun⟩

/-- A text of a document is read as this document, and nothing is left. -/
theorem WrittenAs.ofText {d : Doc} {text : String} (h : d.WrittenAs text) :
    Doc.ofText text = (d, []) := by
  have htokens : Json.tokens text = d.tokens := h.spells.lexed h.sound.separate
  rw [Doc.ofText, htokens, ← List.append_nil d.tokens, h.sound.builds]
  rfl

theorem WrittenAs.read {α : Type} {d : Doc} {text : String} (h : d.WrittenAs text)
    (read : Reader α) : Reader.ofText read text = read d := by
  rw [Reader.ofText, h.ofText]
  show (read d >>= pure) = read d
  exact bind_pure (read d)

end Lineage.Json.Doc
