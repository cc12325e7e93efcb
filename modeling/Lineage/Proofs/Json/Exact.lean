import Lineage.Proofs.Json.Sound

/-!
# What a sound document was built of

A text whose document is sound is a text of this document. At each point the automaton knows the
tokens it has taken: they are those of the containers that are open (`consumed`). A document that it
gives up on is not sound, so one that is sound was built of its own tokens, and these are spelled.
-/

namespace Lineage.Json.Doc

/-- The comma that an item is preceded by, if there are items before it. -/
def commaAfter {α : Type} : List α → List Token
  | [] => []
  | _ :: _ => [.comma]

theorem commaAfter_reverse {α : Type} (xs : List α) : commaAfter xs.reverse = commaAfter xs := by
  cases xs with
  | nil => rfl
  | cons x xs =>
    have hne : (x :: xs).reverse ≠ [] := List.reverse_ne_nil_iff.mpr (List.cons_ne_nil x xs)
    obtain ⟨y, ys, h⟩ := List.exists_cons_of_ne_nil hne
    rw [h]
    rfl

/-- The tokens of an array up to its last item. -/
def openItems : List Doc → List Token
  | [] => [.openBracket]
  | d :: ds => .openBracket :: (d.tokens ++ itemTokens ds)

/-- The tokens of an object up to its last entry. -/
def openEntries : List (StringLexeme × Doc) → List Token
  | [] => [.openBrace]
  | (key, d) :: es => .openBrace :: .string key :: .colon :: (d.tokens ++ entryTokens es)

theorem itemTokens_concat (ds : List Doc) (d : Doc) :
    itemTokens (ds ++ [d]) = itemTokens ds ++ .comma :: d.tokens := by
  induction ds with
  | nil => simp only [List.nil_append, itemTokens, List.append_nil]
  | cons d' ds ih =>
    rw [List.cons_append, itemTokens, ih, itemTokens, List.cons_append, List.append_assoc]

theorem entryTokens_concat (es : List (StringLexeme × Doc)) (key : StringLexeme) (d : Doc) :
    entryTokens (es ++ [(key, d)]) =
      entryTokens es ++ .comma :: .string key :: .colon :: d.tokens := by
  induction es with
  | nil => simp only [List.nil_append, entryTokens, List.append_nil]
  | cons e es ih =>
    obtain ⟨key', d'⟩ := e
    rw [List.cons_append, entryTokens, ih, entryTokens]
    simp only [List.cons_append, List.append_assoc]

theorem openItems_concat (ds : List Doc) (d : Doc) :
    openItems (ds ++ [d]) = openItems ds ++ (commaAfter ds ++ d.tokens) := by
  cases ds with
  | nil =>
    simp only [List.nil_append, openItems, commaAfter, itemTokens, List.append_nil,
      List.singleton_append]
  | cons d' ds =>
    simp only [List.cons_append, openItems, itemTokens_concat, commaAfter, List.append_assoc,
      List.nil_append]

theorem openEntries_concat (es : List (StringLexeme × Doc)) (key : StringLexeme) (d : Doc) :
    openEntries (es ++ [(key, d)]) =
      openEntries es ++ (commaAfter es ++ .string key :: .colon :: d.tokens) := by
  rcases es with _ | ⟨⟨key', d'⟩, es⟩
  · simp only [List.nil_append, openEntries, commaAfter, entryTokens, List.append_nil,
      List.singleton_append]
  · simp only [List.cons_append, openEntries, entryTokens_concat, commaAfter, List.append_assoc,
      List.nil_append]

theorem tokens_array (ds : List Doc) (ending : ArrayEnd) :
    (array ds ending).tokens = openItems ds ++ [.closeBracket] := by
  cases ds with
  | nil => rfl
  | cons d ds => simp only [tokens, openItems, List.cons_append, List.append_assoc]

theorem tokens_object (es : List (StringLexeme × Doc)) (ending : ObjectEnd) :
    (object es ending).tokens = openEntries es ++ [.closeBrace] := by
  rcases es with _ | ⟨⟨key, d⟩, es⟩
  · rfl
  · simp only [tokens, openEntries, List.cons_append, List.append_assoc]

/-- The tokens that have led to these frames. -/
def openFrames : List Frame → List Token
  | [] => []
  | .array items :: frames =>
    openFrames frames ++ (openItems items.reverse ++ commaAfter items)
  | .object entries key :: frames =>
    openFrames frames ++
      (openEntries entries.reverse ++ (commaAfter entries ++ [.string key, .colon]))

/-- The tokens that have been taken. -/
def consumed (due : Due) (frames : List Frame) : List Token :=
  openFrames frames ++
    match due with
    | .value => []
    | .firstItem => [.openBracket]
    | .afterItem items => openItems items.reverse
    | .itemAfterComma items => openItems items.reverse ++ [.comma]
    | .firstKey => [.openBrace]
    | .colon entries key => openEntries entries.reverse ++ (commaAfter entries ++ [.string key])
    | .afterEntry entries => openEntries entries.reverse
    | .keyAfterComma entries => openEntries entries.reverse ++ [.comma]

/-- A container that waits for a comma, or has just had one, is not empty. -/
def Due.Begun : Due → Prop
  | .afterItem items | .itemAfterComma items => items ≠ []
  | .afterEntry entries | .keyAfterComma entries => entries ≠ []
  | _ => True

theorem not_sound_abandon {d : Doc} (h : ¬ d.Sound) (frames : List Frame) :
    ¬ (abandon d frames).Sound := by
  induction frames generalizing d with
  | nil => exact h
  | cons frame frames ih =>
    cases frame with
    | array items => exact ih fun h => nomatch h
    | object entries key => exact ih fun h => nomatch h

theorem not_sound_atEnd (due : Due) (frames : List Frame) : ¬ (atEnd due frames).Sound := by
  cases due <;> exact not_sound_abandon (fun h => by cases h) _

/-! ## The automaton -/

/-- The state after `ts` have been taken. -/
def Next.TakenTo (ts : List Token) : Next → Prop
  | .goOn due frames => due.Begun ∧ consumed due frames = ts
  | .complete d => d.tokens = ts
  | .broken d => ¬ d.Sound

theorem takenTo_deliver (d : Doc) (frames : List Frame) :
    (deliver d frames).TakenTo (openFrames frames ++ d.tokens) := by
  rcases frames with _ | ⟨items | ⟨entries, key⟩, frames⟩
  · exact rfl
  · refine ⟨List.cons_ne_nil _ _, ?_⟩
    simp only [consumed, openFrames, List.reverse_cons, openItems_concat, commaAfter_reverse,
      List.append_assoc]
  · refine ⟨List.cons_ne_nil _ _, ?_⟩
    simp only [consumed, openFrames, List.reverse_cons, openEntries_concat, commaAfter_reverse,
      List.append_assoc, List.cons_append, List.nil_append]

theorem takenTo_beginValue (frames : List Frame) (t : Token) :
    (beginValue frames t).TakenTo (openFrames frames ++ [t]) := by
  cases t with
  | null => exact takenTo_deliver .null frames
  | bool b => exact takenTo_deliver (.bool b) frames
  | number n => exact takenTo_deliver (.number n) frames
  | string s =>
    obtain ⟨us, ending⟩ := s
    cases ending with
    | closed => exact takenTo_deliver (.string ⟨us, .closed⟩) frames
    | _ => exact not_sound_abandon (fun h => by cases h) frames
  | openBracket | openBrace => exact ⟨trivial, rfl⟩
  | _ => exact not_sound_abandon (fun h => by cases h) frames

theorem takenTo_step {due : Due} (h : due.Begun) (frames : List Frame) (t : Token) :
    (step due frames t).TakenTo (consumed due frames ++ [t]) := by
  cases due with
  | value =>
    rw [consumed, List.append_nil]
    exact takenTo_beginValue frames t
  | firstItem =>
    -- What closes nothing begins an item, and is taken under the frame of the array.
    have hitem := takenTo_beginValue (.array [] :: frames) t
    cases t with
    | closeBracket =>
      rw [consumed, List.append_assoc]
      exact takenTo_deliver (.array [] .closed) frames
    | _ => exact hitem
  | afterItem items =>
    cases t with
    | closeBracket =>
      rw [consumed, List.append_assoc, ← tokens_array _ .closed]
      exact takenTo_deliver (arrayOf items .closed) frames
    | comma =>
      refine ⟨h, ?_⟩
      simp only [consumed, List.append_assoc]
    | _ => exact not_sound_abandon (fun h => by cases h) frames
  | itemAfterComma items =>
    have hitem := takenTo_beginValue (.array items :: frames) t
    -- The comma is counted with the frame only if there is an item before it.
    obtain ⟨d, ds, rfl⟩ := List.exists_cons_of_ne_nil h
    cases t with
    | closeBracket => exact not_sound_abandon (fun h => by cases h) frames
    | _ => exact hitem
  | firstKey =>
    cases t with
    | string key =>
      refine ⟨trivial, ?_⟩
      rw [consumed, consumed, List.append_assoc]
      rfl
    | closeBrace =>
      rw [consumed, List.append_assoc]
      exact takenTo_deliver (.object [] .closed) frames
    | _ => exact not_sound_abandon (fun h => by cases h) frames
  | colon entries key =>
    cases t with
    | colon =>
      refine ⟨trivial, ?_⟩
      simp only [consumed, openFrames, List.append_assoc, List.append_nil, List.singleton_append]
    | _ => exact not_sound_abandon (fun h => by cases h) _
  | afterEntry entries =>
    cases t with
    | closeBrace =>
      rw [consumed, List.append_assoc, ← tokens_object _ .closed]
      exact takenTo_deliver (objectOf entries .closed) frames
    | comma =>
      refine ⟨h, ?_⟩
      simp only [consumed, List.append_assoc]
    | _ => exact not_sound_abandon (fun h => by cases h) frames
  | keyAfterComma entries =>
    obtain ⟨e, es, rfl⟩ := List.exists_cons_of_ne_nil h
    cases t with
    | string key =>
      refine ⟨trivial, ?_⟩
      simp only [consumed, commaAfter, List.append_assoc]
    | _ => exact not_sound_abandon (fun h => by cases h) frames

/-- A sound document has been built of its own tokens. -/
theorem tokens_of_build {due : Due} {frames : List Frame} {ts rest : List Token} {d : Doc}
    (hdue : due.Begun) (h : build due frames ts = (d, rest)) (hd : d.Sound) :
    d.tokens ++ rest = consumed due frames ++ ts := by
  -- Along the tokens that are left: each step moves one of them to those that have been taken.
  induction ts generalizing due frames with
  | nil =>
    cases h
    exact absurd hd (not_sound_atEnd due frames)
  | cons t ts ih =>
    rw [build_cons] at h
    have hstep := takenTo_step hdue frames t
    cases hnext : step due frames t with
    | goOn due' frames' =>
      rw [hnext] at h hstep
      obtain ⟨hdue', hconsumed⟩ := hstep
      rw [ih hdue' h, hconsumed, List.append_assoc, List.singleton_append]
    | complete d' =>
      rw [hnext] at h hstep
      cases h
      rw [show d.tokens = _ from hstep, List.append_assoc, List.singleton_append]
    | broken d' =>
      rw [hnext] at h hstep
      cases h
      exact absurd hd hstep

theorem good_itemTokens {ds : List Doc} (h : ∀ d ∈ ds, ∀ t ∈ d.tokens, t.Good) :
    ∀ t ∈ itemTokens ds, t.Good := by
  induction ds with
  | nil => nofun
  | cons d ds ih =>
    obtain ⟨hd, hds⟩ := List.forall_mem_cons.mp h
    exact List.forall_mem_cons.mpr ⟨trivial, List.forall_mem_append.mpr ⟨hd, ih hds⟩⟩

theorem good_entryTokens {es : List (StringLexeme × Doc)} (hkeys : ∀ e ∈ es, e.1.ending = .closed)
    (h : ∀ e ∈ es, ∀ t ∈ e.2.tokens, t.Good) : ∀ t ∈ entryTokens es, t.Good := by
  induction es with
  | nil => nofun
  | cons e es ih =>
    obtain ⟨hkey, hkeys⟩ := List.forall_mem_cons.mp hkeys
    obtain ⟨hd, hes⟩ := List.forall_mem_cons.mp h
    exact List.forall_mem_cons.mpr ⟨trivial, List.forall_mem_cons.mpr ⟨hkey,
      List.forall_mem_cons.mpr ⟨trivial, List.forall_mem_append.mpr ⟨hd, ih hkeys hes⟩⟩⟩⟩

theorem Sound.good {d : Doc} (h : d.Sound) : ∀ t ∈ d.tokens, t.Good := by
  induction h with
  | null | bool | number | string => exact List.forall_mem_singleton.mpr (by trivial)
  | @array items _ ih =>
    cases items with
    | nil => exact List.forall_mem_cons.mpr ⟨trivial, List.forall_mem_singleton.mpr trivial⟩
    | cons d ds =>
      obtain ⟨hd, hds⟩ := List.forall_mem_cons.mp ih
      exact List.forall_mem_cons.mpr ⟨trivial, List.forall_mem_append.mpr ⟨hd,
        List.forall_mem_append.mpr ⟨good_itemTokens hds, List.forall_mem_singleton.mpr trivial⟩⟩⟩
  | @object entries hkeys _ ih =>
    cases entries with
    | nil => exact List.forall_mem_cons.mpr ⟨trivial, List.forall_mem_singleton.mpr trivial⟩
    | cons e es =>
      obtain ⟨hkey, hkeys⟩ := List.forall_mem_cons.mp hkeys
      obtain ⟨hd, hes⟩ := List.forall_mem_cons.mp ih
      exact List.forall_mem_cons.mpr ⟨trivial, List.forall_mem_cons.mpr ⟨hkey,
        List.forall_mem_cons.mpr ⟨trivial, List.forall_mem_append.mpr ⟨hd,
          List.forall_mem_append.mpr ⟨good_entryTokens hkeys hes,
            List.forall_mem_singleton.mpr trivial⟩⟩⟩⟩⟩

/-- A text is valid JSON if its document is sound and nothing follows it. -/
theorem writtenAs_of_ofText {d : Doc} {text : String} (h : Doc.ofText text = (d, []))
    (hd : d.Sound) : d.WrittenAs text := by
  have htokens : d.tokens = lexed text.toList := by
    have hdue : Due.value.Begun := trivial
    have hbuild := tokens_of_build hdue h hd
    rwa [List.append_nil] at hbuild
  refine ⟨hd, ?_⟩
  rw [htokens]
  exact spells_lexed (htokens ▸ hd.good)

end Lineage.Json.Doc
