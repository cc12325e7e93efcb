import Lineage.Config
import Lineage.Proofs.Json.Document
import Lineage.Proofs.Json.Strict
import Lineage.Proofs.Json.Values

/-!
# Configuration files that are read

The grammar of a configuration file: which values a setting may have and what they mean
(`PathValue`, `ScopeValue`, `LimitValue`, `TruthValue`), and which keys are settings (`Setting`).
The readers accept exactly this, so a file that holds an object is read exactly if each entry is a
setting and no key comes twice, and then each field of the configuration is what the file states
for its key (`ofText_object_iff`).
-/

namespace Lineage.Config

open Json

/-- A path is a string. -/
inductive PathValue : Doc → Option String → Prop
  | null : PathValue .null none
  | path {lexeme : StringLexeme} {path : String} (h : lexeme.read = .ok path) :
    PathValue (.string lexeme) (some path)

/-- A scope is given by its word, as a string or as the only key of an object that holds `null`. -/
inductive ScopeValue : Doc → Option Scope → Prop
  | null : ScopeValue .null none
  | word {lexeme : StringLexeme} {scope : Scope} (h : lexeme.read = .ok scope.word) :
    ScopeValue (.string lexeme) (some scope)
  | key {lexeme : StringLexeme} {scope : Scope} (h : lexeme.read = .ok scope.word) :
    ScopeValue (.object [(lexeme, .null)] .closed) (some scope)

/-- A limit is a number of digits only that 32 bits hold. -/
inductive LimitValue : Doc → Option UInt32 → Prop
  | null : LimitValue .null none
  | digits {digits : List Char} {k : UInt32} (h : Decimal.appendDigits 0 digits = k.toNat) :
    LimitValue (.number { negative := false, whole := digits }) (some k)

/-- A truth value is given by itself or by a word for it, in any case and between any blanks. -/
inductive TruthValue : Doc → Option Bool → Prop
  | null : TruthValue .null none
  | bool (b : Bool) : TruthValue (.bool b) (some b)
  | yes {lexeme : StringLexeme} {text : String} (h : lexeme.read = .ok text)
    (hword : Text.lowercase (Text.trim text) ∈ ["true", "1", "yes", "on"]) :
    TruthValue (.string lexeme) (some true)
  | no {lexeme : StringLexeme} {text : String} (h : lexeme.read = .ok text)
    (hword : Text.lowercase (Text.trim text) ∈ ["false", "0", "no", "off"]) :
    TruthValue (.string lexeme) (some false)

section
variable {d : Doc}

theorem readPath_eq_ok_iff {v : Option String} :
    Reader.optional (.text "path string") d = .ok v ↔ PathValue d v := by
  rw [Reader.optional_eq_ok_iff (Reader.careful_text _) fun _ => mismatch_ne_ok]
  constructor
  · rintro (⟨rfl, rfl⟩ | ⟨path, hread, rfl⟩)
    · exact .null
    · obtain ⟨lexeme, rfl, h⟩ := Reader.text_eq_ok_iff.mp hread
      exact .path h
  · rintro (_ | h)
    · exact .inl ⟨rfl, rfl⟩
    · exact .inr ⟨_, h, rfl⟩

theorem lookup_scope_eq_some_iff {name : String} {scope : Scope} :
    Scope.known.lookup name = some scope ↔ name = scope.word := by
  constructor
  · intro h
    obtain ⟨_, _, hknown, -⟩ := List.lookup_eq_some_iff.mp h
    have hmem : (name, scope) ∈ Scope.known := hknown ▸ List.mem_append_right _ List.mem_cons_self
    simp only [Scope.known, List.mem_cons, Prod.mk.injEq, List.not_mem_nil, or_false] at hmem
    rcases hmem with ⟨rfl, rfl⟩ | ⟨rfl, rfl⟩ <;> rfl
  · rintro rfl
    exact scope.lookup_word

theorem readScope_eq_ok_iff {v : Option Scope} :
    Reader.optional Scope.read d = .ok v ↔ ScopeValue d v := by
  rw [Scope.read, Reader.optional_eq_ok_iff (Reader.careful_oneOf _) fun _ => nofun]
  constructor
  · rintro (⟨rfl, rfl⟩ | ⟨scope, hread, rfl⟩)
    · exact .null
    · obtain ⟨lexeme, name, hname, hscope, rfl | rfl⟩ := Reader.oneOf_eq_ok_iff.mp hread
      · exact .word (lookup_scope_eq_some_iff.mp hscope ▸ hname)
      · exact .key (lookup_scope_eq_some_iff.mp hscope ▸ hname)
  · intro h
    have hread {lexeme : StringLexeme} {scope : Scope} (h : lexeme.read = .ok scope.word)
        (hd : d = .string lexeme ∨ d = .object [(lexeme, .null)] .closed) :
        Scope.read d = .ok scope :=
      Reader.oneOf_eq_ok_iff.mpr ⟨lexeme, scope.word, h, scope.lookup_word, hd⟩
    cases h with
    | null => exact .inl ⟨rfl, rfl⟩
    | word h => exact .inr ⟨_, hread h (.inl rfl), rfl⟩
    | key h => exact .inr ⟨_, hread h (.inr rfl), rfl⟩

theorem readLimit_eq_ok_iff {v : Option UInt32} :
    Reader.optional .word d = .ok v ↔ LimitValue d v := by
  rw [Reader.optional_eq_ok_iff Reader.careful_word fun _ => mismatch_ne_ok]
  constructor
  · rintro (⟨rfl, rfl⟩ | ⟨k, hread, rfl⟩)
    · exact .null
    · obtain ⟨digits, rfl, h⟩ := Reader.word_eq_ok_iff.mp hread
      exact .digits h
  · rintro (_ | h)
    · exact .inl ⟨rfl, rfl⟩
    · exact .inr ⟨_, Reader.word_eq_ok_iff.mpr ⟨_, rfl, h⟩, rfl⟩

theorem truthOfWord?_eq_some_iff {text : String} {b : Bool} :
    truthOfWord? text = some b ↔
      b = true ∧ Text.lowercase (Text.trim text) ∈ ["true", "1", "yes", "on"] ∨
      b = false ∧ Text.lowercase (Text.trim text) ∈ ["false", "0", "no", "off"] := by
  have hapart : ∀ word ∈ ["false", "0", "no", "off"], word ∉ ["true", "1", "yes", "on"] := by decide
  simp only [truthOfWord?]
  split
  next hyes =>
    constructor
    · rintro ⟨⟩
      exact .inl ⟨rfl, hyes⟩
    · rintro (⟨rfl, -⟩ | ⟨-, hno⟩)
      · rfl
      · exact absurd hyes (hapart _ hno)
  next hyes =>
    split
    next hno =>
      constructor
      · rintro ⟨⟩
        exact .inr ⟨rfl, hno⟩
      · rintro (⟨-, h⟩ | ⟨rfl, -⟩)
        · exact absurd h hyes
        · rfl
    next hno => exact ⟨nofun, fun h => h.elim (fun h => absurd h.2 hyes) fun h => absurd h.2 hno⟩

theorem readTruth_eq_ok_iff {v : Option Bool} : readTruth d = .ok v ↔ TruthValue d v := by
  constructor
  · intro h
    unfold readTruth at h
    split at h
    · cases h
      exact .null
    · cases h
      exact .bool _
    next lexeme =>
      obtain ⟨text, hread, h⟩ := bind_eq_ok_iff.mp h
      split at h
      next b hword =>
        cases h
        rcases truthOfWord?_eq_some_iff.mp hword with ⟨rfl, hyes⟩ | ⟨rfl, hno⟩
        · exact .yes hread hyes
        · exact .no hread hno
      next => cases h
    next =>
      obtain ⟨_, -, h⟩ := bind_eq_ok_iff.mp h
      cases h
  · intro h
    cases h with
    | null => rfl
    | bool b => rfl
    | yes hread hword =>
      refine bind_eq_ok_iff.mpr ⟨_, hread, ?_⟩
      rw [truthOfWord?_eq_some_iff.mpr (.inl ⟨rfl, hword⟩)]
      rfl
    | no hread hword =>
      refine bind_eq_ok_iff.mpr ⟨_, hread, ?_⟩
      rw [truthOfWord?_eq_some_iff.mpr (.inr ⟨rfl, hword⟩)]
      rfl

end

/-! ## Settings -/

/-- A setting with a value that it may have, and what it changes. -/
inductive Setting : String → Doc → (Config → Config) → Prop
  | index {d : Doc} {v : Option String} (h : PathValue d v) :
    Setting "index" d fun c => { c with index := v }
  | scope {d : Doc} {v : Option Scope} (h : ScopeValue d v) :
    Setting "scope" d fun c => { c with scope := v }
  | limit {d : Doc} {v : Option UInt32} (h : LimitValue d v) :
    Setting "maxChainDepth" d fun c => { c with limit := v }
  | caseSensitive {d : Doc} {v : Option Bool} (h : TruthValue d v) :
    Setting "caseSensitive" d fun c => { c with caseSensitive := v }

/-- An entry changes the configuration exactly if it is a setting. -/
theorem gives_iff {e : StringLexeme × Doc} {gift : Gift Config} :
    shape.Gives e (some gift) ↔
      e.1.read = .ok gift.name ∧ Setting gift.name e.2 gift.put := by
  constructor
  · rintro @⟨key, d, name, slot, put, hkey, hslot, hread⟩
    obtain ⟨hmem, rfl⟩ := Shape.mem_of_slot? hslot
    refine ⟨hkey, ?_⟩
    simp only [shape, List.mem_cons, List.not_mem_nil, or_false] at hmem
    rcases hmem with rfl | rfl | rfl | rfl
    · obtain ⟨v, hv, rfl⟩ := map_eq_ok_iff.mp hread
      exact .index (readPath_eq_ok_iff.mp hv)
    · obtain ⟨v, hv, rfl⟩ := map_eq_ok_iff.mp hread
      exact .scope (readScope_eq_ok_iff.mp hv)
    · obtain ⟨v, hv, rfl⟩ := map_eq_ok_iff.mp hread
      exact .limit (readLimit_eq_ok_iff.mp hv)
    · obtain ⟨v, hv, rfl⟩ := map_eq_ok_iff.mp hread
      exact .caseSensitive (readTruth_eq_ok_iff.mp hv)
  · obtain ⟨key, d⟩ := e
    obtain ⟨name, put⟩ := gift
    rintro ⟨hkey, hsetting⟩
    cases hsetting with
    | index h => exact .known hkey rfl (map_eq_ok_iff.mpr ⟨_, readPath_eq_ok_iff.mpr h, rfl⟩)
    | scope h => exact .known hkey rfl (map_eq_ok_iff.mpr ⟨_, readScope_eq_ok_iff.mpr h, rfl⟩)
    | limit h => exact .known hkey rfl (map_eq_ok_iff.mpr ⟨_, readLimit_eq_ok_iff.mpr h, rfl⟩)
    | caseSensitive h =>
      exact .known hkey rfl (map_eq_ok_iff.mpr ⟨_, readTruth_eq_ok_iff.mpr h, rfl⟩)

/-- A field is made by its own setting if it is blank at first and the other settings leave it as it
is. -/
theorem makes_of_setting {β : Type} {key : String} {means : Doc → Option β → Prop}
    {part : Config → Option β} (hblank : part {} = none)
    (hown : ∀ {name d put}, Setting name d put → name = key →
      ∃ v, means d v ∧ ∀ c, part (put c) = v)
    (hother : ∀ {name d put}, Setting name d put → name ≠ key → ∀ c, part (put c) = part c) :
    shape.Makes key means part where
  blank := hblank
  own he hname := hown (gives_iff.mp he).2 hname
  other he hne := hother (gives_iff.mp he).2 hne

theorem makes_index : shape.Makes "index" PathValue index := by
  refine makes_of_setting rfl (fun h hname => ?_) (fun h hne c => ?_)
  · cases h with
    | index h => exact ⟨_, h, fun _ => rfl⟩
    | _ => exact absurd hname (by decide)
  · cases h with
    | index h => exact absurd rfl hne
    | _ => rfl

theorem makes_scope : shape.Makes "scope" ScopeValue scope := by
  refine makes_of_setting rfl (fun h hname => ?_) (fun h hne c => ?_)
  · cases h with
    | scope h => exact ⟨_, h, fun _ => rfl⟩
    | _ => exact absurd hname (by decide)
  · cases h with
    | scope h => exact absurd rfl hne
    | _ => rfl

theorem makes_limit : shape.Makes "maxChainDepth" LimitValue limit := by
  refine makes_of_setting rfl (fun h hname => ?_) (fun h hne c => ?_)
  · cases h with
    | limit h => exact ⟨_, h, fun _ => rfl⟩
    | _ => exact absurd hname (by decide)
  · cases h with
    | limit h => exact absurd rfl hne
    | _ => rfl

theorem makes_caseSensitive : shape.Makes "caseSensitive" TruthValue caseSensitive := by
  refine makes_of_setting rfl (fun h hname => ?_) (fun h hne c => ?_)
  · cases h with
    | caseSensitive h => exact ⟨_, h, fun _ => rfl⟩
    | _ => exact absurd hname (by decide)
  · cases h with
    | caseSensitive h => exact absurd rfl hne
    | _ => rfl

/-! ## Files -/

/-- A file that holds an object is read exactly if each of its entries is a setting and no key comes
twice. Each field of the configuration is then what the file states for its key. -/
theorem ofText_object_iff {entries : List (StringLexeme × Doc)} {text : String}
    (h : (Doc.object entries .closed).WrittenAs text) :
    ((∃ c, ofText text = .ok c) ↔
      (∀ e ∈ entries, ∃ name put, e.1.read = .ok name ∧ Setting name e.2 put) ∧
        entries.Pairwise fun e e' => e.1.read ≠ e'.1.read) ∧
    ∀ c, ofText text = .ok c →
      States PathValue "index" entries c.index ∧ States ScopeValue "scope" entries c.scope ∧
        States LimitValue "maxChainDepth" entries c.limit ∧
        States TruthValue "caseSensitive" entries c.caseSensitive := by
  have hread : ofText text = shape.readObject entries .closed := h.read shape.read
  have hoptional : ∀ slot ∈ shape.slots, slot.isRequired = false := by
    simp only [shape, List.forall_mem_cons]
    exact ⟨rfl, rfl, rfl, rfl, nofun⟩
  rw [hread]
  constructor
  · rw [Shape.exists_readObject_iff rfl hoptional]
    refine and_congr_left fun _ => forall₂_congr fun e _ => ?_
    constructor
    · rintro ⟨gift, hgift⟩
      exact ⟨gift.name, gift.put, gives_iff.mp hgift⟩
    · rintro ⟨name, put, hsetting⟩
      exact ⟨⟨name, put⟩, gives_iff.mpr hsetting⟩
  · intro c hc
    exact ⟨makes_index.states rfl hoptional hc, makes_scope.states rfl hoptional hc,
      makes_limit.states rfl hoptional hc, makes_caseSensitive.states rfl hoptional hc⟩

/-- A scope in an object, a word with blanks around it, and a limit. -/
theorem ofText_words :
    let entries := Value.entryDocs
      [("scope", .object [("project", .null)]), ("caseSensitive", .string " Yes "),
        ("maxChainDepth", .number 16)]
    ∃ text, (Doc.object entries .closed).WrittenAs text ∧
      ofText text =
        .ok { scope := some .project, limit := some 16, caseSensitive := some true } ∧
      States TruthValue "caseSensitive" entries (some true) ∧
      States PathValue "index" entries none := by
  intro entries
  have h : (Doc.object entries .closed).WrittenAs _ := Value.written_text (.object _) .indented
  have hread : ofText _ = shape.readObject entries .closed := h.read shape.read
  have hc : shape.readObject entries .closed =
      .ok { scope := some .project, limit := some 16, caseSensitive := some true } := by
    rfl
  obtain ⟨hindex, -, -, hcase⟩ := (ofText_object_iff h).2 _ (hread.trans hc)
  exact ⟨_, h, hread.trans hc, hcase, hindex⟩

end Lineage.Config
