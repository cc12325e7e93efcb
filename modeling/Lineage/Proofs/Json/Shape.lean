import Mathlib.Data.List.Basic
import Lineage.Proofs.Basic
import Lineage.Proofs.Json.Arrangement
import Lineage.Proofs.Json.Document

/-!
# What is written is read back

`Restores read write` says that a reader gives back whatever its writer has written. A reader of
lists or of alternatives has this from the readers it is made of. A record is read from its entries
one by one, and each entry that has been written sets its own field.

Two values with the same text are the same value, whatever their strings hold: a text is read as one
document only, and each value is written as a document of its own. A writer of records tells its
records apart if it tells their fields apart, and any writer does that has a reader.
-/

namespace Lineage.Json

/-- `read` gives back what `write` has written. -/
def Restores {α : Type} (read : Reader α) (write : α → Value) : Prop :=
  ∀ a, read (write a).doc = .ok a

theorem restores_string : Restores Reader.string .string := StringLexeme.read_written

theorem restores_boolean : Restores Reader.boolean .bool := fun _ => rfl

section
variable {α : Type} {read : Reader α} {write : α → Value}

theorem mapM_docs (h : Restores read write) (as : List α) :
    (Value.docs (as.map write)).mapM read = .ok as := by
  induction as with
  | nil => rfl
  | cons a as ih =>
    rw [List.map_cons, Value.docs, List.mapM_cons, h a, ih]
    rfl

theorem Restores.items (h : Restores read write) (expected : String) :
    Restores (Reader.items expected read) fun as => .array (as.map write) := by
  intro as
  simp only [Value.doc, Reader.items, mapM_docs h]
  rfl

theorem Restores.optional (h : Restores read write) (hnull : ∀ a, write a ≠ .null) (a : α) :
    Reader.optional read (write a).doc = .ok (some a) := by
  have hsome : (read (write a).doc).map some = .ok (some a) := by
    rw [h a]
    rfl
  cases hwrite : write a with
  | null => exact absurd hwrite (hnull a)
  | _ => rwa [hwrite] at hsome

end

/-- An alternative that is written by its name comes back, if it is known by this name. -/
theorem restores_oneOf {α : Type} {known : List (String × α)} {word : α → String}
    (h : ∀ a, known.lookup (word a) = some a) :
    Restores (Reader.oneOf known) fun a => .string (word a) := by
  intro a
  show (do Reader.alternative known (← (StringLexeme.written (word a)).read)) = .ok a
  rw [StringLexeme.read_written]
  show Reader.alternative known (word a) = .ok a
  rw [Reader.alternative, h a]

/-! ## Records -/

section
variable {α β : Type} {read : Reader β} {v : Value} {b : β} (h : read v.doc = .ok b) (key : String)
  (put : β → α → α)
include h

theorem Slot.read_required : (Slot.required key read put).read v.doc = .ok (put b) := by
  show (read v.doc).map put = _
  rw [h]
  rfl

theorem Slot.read_optional : (Slot.optional key read put).read v.doc = .ok (put b) := by
  show (read v.doc).map put = _
  rw [h]
  rfl

end

namespace Shape

variable {α : Type} {shape : Shape α}

/-- One entry of an object that has been written. -/
theorem readEntries_cons {slot : Slot α} {key : String} {v : Value} {put : α → α}
    {seen : List String} {a : α} {es : List (String × Value)} (hslot : shape.slot? key = some slot)
    (hread : slot.read v.doc = .ok put) (hseen : key ∉ seen) :
    shape.readEntries seen a (Value.entryDocs ((key, v) :: es)) =
      shape.readEntries (key :: seen) (put a) (Value.entryDocs es) := by
  rw [Value.entryDocs]
  exact readEntries_cons_of_known (.known (StringLexeme.read_written key) hslot hread) hseen

theorem read_object {es : List (String × Value)} {a : α} (seen : List String)
    (h : shape.readEntries [] shape.blank (Value.entryDocs es) = .ok (seen, a))
    (hmissing : (shape.missing? seen).isNone = true) :
    shape.read (Value.object es).doc = .ok a := by
  rw [Option.isNone_iff_eq_none] at hmissing
  simp only [Value.doc, read, readObject, h, bind, Except.bind, hmissing]
  rfl

end Shape

/-! ## Texts that tell their values -/

theorem StringLexeme.written_injective : Function.Injective StringLexeme.written := by
  intro s t h
  have hread : (written s).read = (written t).read := congrArg read h
  rw [read_written, read_written] at hread
  exact Except.ok.inj hread

theorem Number.written_injective : Function.Injective Number.written := by
  intro m n h
  exact Decimal.toDigits_injective (Number.mk.inj h).2.1

namespace Value

mutual

theorem eq_of_doc : ∀ {v w : Value}, v.doc = w.doc → v = w
  | null, w, h => by
    cases w with
    | null => rfl
    | _ => cases h
  | bool b, w, h => by
    cases w with
    | bool c => exact congrArg bool (Doc.bool.inj h)
    | _ => cases h
  | number n, w, h => by
    cases w with
    | number m => exact congrArg number (Number.written_injective (Doc.number.inj h))
    | _ => cases h
  | string s, w, h => by
    cases w with
    | string t => exact congrArg string (StringLexeme.written_injective (Doc.string.inj h))
    | _ => cases h
  | array vs, w, h => by
    cases w with
    | array ws => exact congrArg array (eq_of_docs (Doc.array.inj h).1)
    | _ => cases h
  | object es, w, h => by
    cases w with
    | object fs => exact congrArg object (eq_of_entryDocs (Doc.object.inj h).1)
    | _ => cases h

theorem eq_of_docs : ∀ {vs ws : List Value}, docs vs = docs ws → vs = ws
  | [], [], _ => rfl
  | [], _ :: _, h => nomatch h
  | _ :: _, [], h => nomatch h
  | v :: vs, w :: ws, h => by
    obtain ⟨hv, hvs⟩ := List.cons.inj h
    rw [eq_of_doc hv, eq_of_docs hvs]

theorem eq_of_entryDocs : ∀ {es fs : List (String × Value)},
    entryDocs es = entryDocs fs → es = fs
  | [], [], _ => rfl
  | [], (_, _) :: _, h => nomatch h
  | (_, _) :: _, [], h => nomatch h
  | (key, v) :: es, (key', v') :: fs, h => by
    obtain ⟨he, hes⟩ := List.cons.inj h
    obtain ⟨hkey, hv⟩ := Prod.mk.inj he
    rw [StringLexeme.written_injective hkey, eq_of_doc hv, eq_of_entryDocs hes]

end

/-- A value is known from its text, since the text is read as the value's document. -/
theorem text_injective (layout : Layout) : Function.Injective (text layout) := by
  intro v w h
  have hdoc : Doc.ofText (v.text layout) = Doc.ofText (w.text layout) := by rw [h]
  rw [Doc.ofText_text, Doc.ofText_text] at hdoc
  exact eq_of_doc (Prod.mk.inj hdoc).1

theorem ofNames_injective : Function.Injective ofNames := by
  intro ns ms h
  have hstring : Function.Injective string := fun _ _ => string.inj
  exact hstring.list_map (array.inj h)

section
variable {α : Type} {write : α → Value} (hwrite : Function.Injective write)
include hwrite

/-- What is absent is written as `null`, so nothing else may be. -/
theorem ofOption_injective (hnull : ∀ a, write a ≠ null) :
    Function.Injective (ofOption write) := by
  intro o p h
  cases o with
  | none =>
    cases p with
    | none => rfl
    | some b => exact absurd h.symm (hnull b)
  | some a =>
    cases p with
    | none => exact absurd h (hnull a)
    | some b => exact congrArg some (hwrite h)

theorem optionalEntry_injective (key : String) :
    Function.Injective (optionalEntry key write) := by
  intro o p h
  cases o with
  | none =>
    cases p with
    | none => rfl
    | some b => cases h
  | some a =>
    cases p with
    | none => cases h
    | some b =>
      obtain ⟨he, -⟩ := List.cons.inj h
      exact congrArg some (hwrite (Prod.mk.inj he).2)

end

end Value

theorem Restores.injective {α : Type} {read : Reader α} {write : α → Value}
    (h : Restores read write) : Function.Injective write := by
  intro a b hab
  have hread : read (write a).doc = read (write b).doc := by rw [hab]
  rw [h a, h b] at hread
  exact Except.ok.inj hread

end Lineage.Json
