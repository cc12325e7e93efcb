import Lineage.Proofs.Json.Sound

/-!
# Documents of what is written

The text of a value is one document, whichever layout it has: it spells the tokens of the value,
with the blanks of the layout between them.
-/

namespace Lineage.Json

namespace Layout

variable (layout : Layout) (depth : Nat)

theorem isBlank_of_mem_lineBreak : ∀ c ∈ layout.lineBreak depth, isBlank c = true := by
  cases layout <;> simp [lineBreak, isBlank]

theorem spells_lineBreak {ts : List Token} {cs : List Char} (h : Spells ts cs) :
    Spells ts (layout.lineBreak depth ++ cs) :=
  h.blanks (layout.isBlank_of_mem_lineBreak depth)

theorem spells_colon {ts : List Token} {cs : List Char} (h : Spells ts cs) :
    Spells (.colon :: ts) (layout.colon ++ cs) := by
  cases layout with
  | compact => exact .token .colon h
  | indented =>
    show Spells (.colon :: ts) ([':'] ++ ' ' :: cs)
    exact .token .colon (.blank rfl h)

end Layout

namespace Value

mutual

/-- The document that a value is read as. -/
def doc : Value → Doc
  | null => .null
  | bool b => .bool b
  | number n => .number (.written n)
  | string s => .string (.written s)
  | array vs => .array (docs vs) .closed
  | object es => .object (entryDocs es) .closed

def docs : List Value → List Doc
  | [] => []
  | v :: vs => v.doc :: docs vs

def entryDocs : List (String × Value) → List (StringLexeme × Doc)
  | [] => []
  | (key, v) :: es => (.written key, v.doc) :: entryDocs es

end

mutual

theorem sound_doc : ∀ v : Value, v.doc.Sound
  | null => .null
  | bool b => .bool b
  | number n => .number (.written n)
  | string s => .string (s.toList.map .written)
  | array vs => .array (sound_docs vs)
  | object es => .object (closed_entryDocs es) (sound_entryDocs es)

theorem sound_docs : ∀ (vs : List Value), ∀ d ∈ docs vs, d.Sound
  | [] => nofun
  | v :: vs => List.forall_mem_cons.mpr ⟨sound_doc v, sound_docs vs⟩

theorem closed_entryDocs : ∀ (es : List (String × Value)), ∀ e ∈ entryDocs es, e.1.ending = .closed
  | [] => nofun
  | (_, _) :: es => List.forall_mem_cons.mpr ⟨rfl, closed_entryDocs es⟩

theorem sound_entryDocs : ∀ (es : List (String × Value)), ∀ e ∈ entryDocs es, e.2.Sound
  | [] => nofun
  | (_, v) :: es => List.forall_mem_cons.mpr ⟨sound_doc v, sound_entryDocs es⟩

end

theorem spells_writeString (s : String) {ts : List Token} {cs : List Char} (h : Spells ts cs) :
    Spells (.string (.written s) :: ts) (writeString s ++ cs) :=
  .token (.string (spellsUnits_written s.toList)) h

mutual

/-- What is written for a value spells its tokens, in front of any other text. -/
theorem spells_write (layout : Layout) (depth : Nat) : ∀ (v : Value) {ts : List Token}
    {cs : List Char}, Spells ts cs → Spells (v.doc.tokens ++ ts) (v.write layout depth ++ cs)
  | null, _, _, h => .token .null h
  | bool true, _, _, h => .token .true h
  | bool false, _, _, h => .token .false h
  | number n, _, _, h => .token (.number (Number.spelled_written n)) h
  | string s, _, _, h => spells_writeString s h
  | array [], ts, cs, h => by
    show Spells (.openBracket :: .closeBracket :: ts) (['['] ++ ([']'] ++ cs))
    exact .token .openBracket (.token .closeBracket h)
  | array (v :: vs), ts, cs, h => by
    simp only [doc, docs, Doc.tokens, write, List.append_assoc, List.cons_append, List.nil_append]
    refine .token .openBracket (layout.spells_lineBreak _ (spells_write layout (depth + 1) v ?_))
    exact spells_writeItems layout (depth + 1) vs
      (layout.spells_lineBreak _ (.token .closeBracket h))
  | object [], ts, cs, h => by
    show Spells (.openBrace :: .closeBrace :: ts) (['\x7b'] ++ (['\x7d'] ++ cs))
    exact .token .openBrace (.token .closeBrace h)
  | object ((key, v) :: es), ts, cs, h => by
    simp only [doc, entryDocs, Doc.tokens, write, List.append_assoc, List.cons_append,
      List.nil_append]
    refine .token .openBrace (layout.spells_lineBreak _ (spells_writeString key ?_))
    refine layout.spells_colon (spells_write layout (depth + 1) v ?_)
    exact spells_writeEntries layout (depth + 1) es
      (layout.spells_lineBreak _ (.token .closeBrace h))

theorem spells_writeItems (layout : Layout) (depth : Nat) : ∀ (vs : List Value) {ts : List Token}
    {cs : List Char}, Spells ts cs →
      Spells (Doc.itemTokens (docs vs) ++ ts) (writeItems layout depth vs ++ cs)
  | [], _, _, h => h
  | v :: vs, ts, cs, h => by
    simp only [docs, Doc.itemTokens, writeItems, List.append_assoc, List.cons_append]
    refine .token .comma (layout.spells_lineBreak _ (spells_write layout depth v ?_))
    exact spells_writeItems layout depth vs h

theorem spells_writeEntries (layout : Layout) (depth : Nat) : ∀ (es : List (String × Value))
    {ts : List Token} {cs : List Char}, Spells ts cs →
      Spells (Doc.entryTokens (entryDocs es) ++ ts) (writeEntries layout depth es ++ cs)
  | [], _, _, h => h
  | (key, v) :: es, ts, cs, h => by
    simp only [entryDocs, Doc.entryTokens, writeEntries, List.append_assoc, List.cons_append]
    refine .token .comma (layout.spells_lineBreak _ (spells_writeString key ?_))
    refine layout.spells_colon (spells_write layout depth v ?_)
    exact spells_writeEntries layout depth es h

end

theorem written_text (v : Value) (layout : Layout) : v.doc.WrittenAs (v.text layout) where
  sound := v.sound_doc
  spells := by
    rw [text, String.toList_ofList, ← List.append_nil (v.write layout 0),
      ← List.append_nil v.doc.tokens]
    exact spells_write layout 0 v .nil

end Value

/-- The text of a value is one document, and nothing else. -/
theorem Doc.ofText_text (v : Value) (layout : Layout) : ofText (v.text layout) = (v.doc, []) :=
  (v.written_text layout).ofText

end Lineage.Json
