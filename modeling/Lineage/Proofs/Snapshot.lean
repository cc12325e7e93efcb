import Lineage.Index
import Lineage.Proofs.Json.Careful
import Lineage.Proofs.Json.Document
import Lineage.Proofs.Json.Shape
import Lineage.Snapshot

/-!
# Snapshots that are read

A snapshot that has been written is read back as it was. The writer leaves out what is absent and
the reader fills it in, so a list of types that is absent and one that is empty stay apart; lists
keep their order, and a set of types the order of its names.

A snapshot is the same whatever the order of the keys in its document and in each of its records,
and whatever values stand there under foreign keys.
-/

namespace Lineage

open Json

theorem Origin.restores : Restores Origin.read Origin.toJson := restores_oneOf Origin.lookup_word

namespace TypeSet

theorem names_foldl_insert (names : List String) (s : TypeSet) (h : (s.names ++ names).Nodup) :
    (names.foldl (fun s name => (s.insert name).2) s).names = s.names ++ names := by
  induction names generalizing s with
  | nil => exact (List.append_nil _).symm
  | cons name names ih =>
    have hnew : name ∉ s.names := fun hmem =>
      (List.nodup_append.mp h).2.2 name hmem name List.mem_cons_self rfl
    have hnames : (s.insert name).2.names = s.names ++ [name] := by
      rw [names_insert, if_neg hnew]
    have hsplit : (s.insert name).2.names ++ names = s.names ++ name :: names := by
      rw [hnames, List.append_assoc, List.singleton_append]
    rw [List.foldl_cons, ih _ (hsplit ▸ h), hsplit]

/-- No name of a set is a repetition, so all are kept, in their order. -/
theorem ofList_names (s : TypeSet) : ofList s.names = s := by
  have hnames : (ofList s.names).names = s.names := names_foldl_insert s.names empty s.nodup
  obtain ⟨names, nodup⟩ := s
  cases h : ofList names
  rw [h] at hnames
  cases hnames
  rfl

theorem restores : Restores TypeSet.read TypeSet.toJson := by
  intro s
  show (Reader.set .string (Value.array (s.names.map .string)).doc).map ofList = .ok s
  rw [Reader.set, restores_string.items "a set" s.names]
  exact congrArg Except.ok s.ofList_names

end TypeSet

theorem restores_names : Restores (Reader.list .string) Value.ofNames :=
  restores_string.items "a sequence"

theorem ClassRecord.restores : Restores shape.read toJson := by
  intro r
  obtain ⟨name, superName, origin⟩ := r
  have hname := Slot.read_required (restores_string name) "name"
    fun name (r : ClassRecord) => { r with name }
  have horigin := Slot.read_optional (Origin.restores origin) "origin"
    fun origin (r : ClassRecord) => { r with origin }
  cases superName with
  | none =>
    refine Shape.read_object ["origin", "name"] ?_ (by decide)
    rw [Value.optionalEntry, List.append_nil, List.singleton_append,
      Shape.readEntries_cons rfl hname (by decide), Shape.readEntries_cons rfl horigin (by decide)]
    rfl
  | some superName =>
    have hsuper := Slot.read_optional (restores_string.optional (fun _ h => by cases h) superName) "super"
      fun superName (r : ClassRecord) => { r with superName }
    refine Shape.read_object ["origin", "super", "name"] ?_ (by decide)
    rw [Value.optionalEntry, List.append_assoc, List.singleton_append, List.singleton_append,
      Shape.readEntries_cons rfl hname (by decide), Shape.readEntries_cons rfl hsuper (by decide),
      Shape.readEntries_cons rfl horigin (by decide)]
    rfl

theorem FieldDef.restores : Restores shape.read toJson := by
  intro f
  obtain ⟨name, className, types, origin⟩ := f
  have hname := Slot.read_required (restores_string name) "name"
    fun name (f : FieldDef) => { f with name }
  have hclass := Slot.read_required (restores_string className) "class"
    fun className (f : FieldDef) => { f with className }
  have horigin := Slot.read_optional (Origin.restores origin) "origin"
    fun origin (f : FieldDef) => { f with origin }
  cases types with
  | none =>
    refine Shape.read_object ["origin", "class", "name"] ?_ (by decide)
    rw [Value.optionalEntry, List.append_nil, List.cons_append, List.singleton_append,
      Shape.readEntries_cons rfl hname (by decide), Shape.readEntries_cons rfl hclass (by decide),
      Shape.readEntries_cons rfl horigin (by decide)]
    rfl
  | some types =>
    have htypes := Slot.read_optional (TypeSet.restores.optional (fun _ h => by cases h) types) "types"
      fun types (f : FieldDef) => { f with types }
    refine Shape.read_object ["origin", "types", "class", "name"] ?_ (by decide)
    rw [Value.optionalEntry, List.append_assoc, List.cons_append, List.singleton_append,
      List.singleton_append, Shape.readEntries_cons rfl hname (by decide),
      Shape.readEntries_cons rfl hclass (by decide), Shape.readEntries_cons rfl htypes (by decide),
      Shape.readEntries_cons rfl horigin (by decide)]
    rfl

theorem MethodDef.restores : Restores shape.read toJson := by
  intro m
  obtain ⟨name, className, params, isStatic, origin⟩ := m
  have hname := Slot.read_required (restores_string name) "name"
    fun name (m : MethodDef) => { m with name }
  have hclass := Slot.read_required (restores_string className) "class"
    fun className (m : MethodDef) => { m with className }
  have hparams := Slot.read_optional (restores_names params) "params"
    fun params (m : MethodDef) => { m with params }
  have hstatic := Slot.read_optional (restores_boolean isStatic) "static"
    fun isStatic (m : MethodDef) => { m with isStatic }
  have horigin := Slot.read_optional (Origin.restores origin) "origin"
    fun origin (m : MethodDef) => { m with origin }
  refine Shape.read_object ["origin", "static", "params", "class", "name"] ?_ (by decide)
  rw [Shape.readEntries_cons rfl hname (by decide), Shape.readEntries_cons rfl hclass (by decide),
    Shape.readEntries_cons rfl hparams (by decide), Shape.readEntries_cons rfl hstatic (by decide),
    Shape.readEntries_cons rfl horigin (by decide)]
  rfl

namespace Snapshot

theorem restores : Restores shape.read toJson := by
  intro s
  obtain ⟨classes, fields, methods⟩ := s
  have hclasses := Slot.read_optional (ClassRecord.restores.items "a sequence" classes) "classes"
    fun classes (s : Snapshot) => { s with classes }
  have hfields := Slot.read_optional (FieldDef.restores.items "a sequence" fields) "fields"
    fun fields (s : Snapshot) => { s with fields }
  have hmethods := Slot.read_optional (MethodDef.restores.items "a sequence" methods) "methods"
    fun methods (s : Snapshot) => { s with methods }
  refine Shape.read_object ["methods", "fields", "classes"] ?_ (by decide)
  rw [Shape.readEntries_cons rfl hclasses (by decide),
    Shape.readEntries_cons rfl hfields (by decide), Shape.readEntries_cons rfl hmethods (by decide)]
  rfl

/-- A snapshot is read back from its text as it was, in either layout, and so is the index that is
built of it. -/
theorem restored_of_text (s : Snapshot) (layout : Layout) :
    ∃ t, ofText (s.toJson.text layout) = .ok t ∧ t = s ∧ t.index.catalog = s.index.catalog ∧
      t.index.classNames = s.index.classNames ∧ t.index.classCount = s.index.classCount := by
  have hread : ofText (s.toJson.text layout) = .ok s := by
    rw [ofText, Reader.ofText, Doc.ofText_text]
    simp only [restores s, bind, Except.bind]
    rfl
  exact ⟨s, hread, rfl, rfl, rfl, rfl⟩

end Snapshot

/-! ## Rearranged snapshots -/

theorem Origin.careful_read : Reader.Careful Origin.read := Reader.careful_oneOf known

theorem careful_names : Reader.Careful (.list .string) :=
  (Reader.careful_text "a string").items "a sequence"

theorem TypeSet.careful_read : Reader.Careful TypeSet.read :=
  ((Reader.careful_text "a string").items "a set").map ofList

namespace ClassRecord

theorem commutes : shape.Commutes := by
  simp only [Shape.Commutes, shape, List.pairwise_cons, List.forall_mem_cons]
  refine ⟨⟨?_, ?_, nofun⟩, ⟨?_, nofun⟩, nofun, .nil⟩ <;> exact Slot.apart_of_put fun _ _ _ => rfl

theorem careful_read : Reader.Careful shape.read := by
  refine Shape.careful ?_
  simp only [shape, List.forall_mem_cons]
  exact ⟨Slot.careful_of_read (Reader.careful_text _),
    Slot.careful_of_read (Reader.careful_text _).optional,
    Slot.careful_of_read Origin.careful_read, nofun⟩

end ClassRecord

namespace FieldDef

theorem commutes : shape.Commutes := by
  simp only [Shape.Commutes, shape, List.pairwise_cons, List.forall_mem_cons]
  refine ⟨⟨?_, ?_, ?_, nofun⟩, ⟨?_, ?_, nofun⟩, ⟨?_, nofun⟩, nofun, .nil⟩ <;>
    exact Slot.apart_of_put fun _ _ _ => rfl

theorem careful_read : Reader.Careful shape.read := by
  refine Shape.careful ?_
  simp only [shape, List.forall_mem_cons]
  exact ⟨Slot.careful_of_read (Reader.careful_text _),
    Slot.careful_of_read (Reader.careful_text _),
    Slot.careful_of_read TypeSet.careful_read.optional,
    Slot.careful_of_read Origin.careful_read, nofun⟩

end FieldDef

namespace MethodDef

theorem commutes : shape.Commutes := by
  simp only [Shape.Commutes, shape, List.pairwise_cons, List.forall_mem_cons]
  refine ⟨⟨?_, ?_, ?_, ?_, nofun⟩, ⟨?_, ?_, ?_, nofun⟩, ⟨?_, ?_, nofun⟩, ⟨?_, nofun⟩, nofun,
    .nil⟩ <;> exact Slot.apart_of_put fun _ _ _ => rfl

theorem careful_read : Reader.Careful shape.read := by
  refine Shape.careful ?_
  simp only [shape, List.forall_mem_cons]
  exact ⟨Slot.careful_of_read (Reader.careful_text _),
    Slot.careful_of_read (Reader.careful_text _),
    Slot.careful_of_read careful_names,
    Slot.careful_of_read Reader.careful_boolean,
    Slot.careful_of_read Origin.careful_read, nofun⟩

end MethodDef

namespace Snapshot

theorem commutes : shape.Commutes := by
  simp only [Shape.Commutes, shape, List.pairwise_cons, List.forall_mem_cons]
  refine ⟨⟨?_, ?_, nofun⟩, ⟨?_, nofun⟩, nofun, .nil⟩ <;> exact Slot.apart_of_put fun _ _ _ => rfl

theorem careful_read : Reader.Careful shape.read := by
  refine Shape.careful ?_
  simp only [shape, List.forall_mem_cons]
  exact ⟨Slot.careful_of_read (ClassRecord.careful_read.items _),
    Slot.careful_of_read (FieldDef.careful_read.items _),
    Slot.careful_of_read (MethodDef.careful_read.items _), nofun⟩

/-- An entry of the document with the records of its list rearranged, or a foreign entry as it
is. -/
inductive EntryRearranged : StringLexeme × Doc → StringLexeme × Doc → Prop
  | classes {key : StringLexeme} {d d' : Doc} (hkey : key.read = .ok "classes")
    (h : ClassRecord.shape.RearrangedList d d') : EntryRearranged (key, d) (key, d')
  | fields {key : StringLexeme} {d d' : Doc} (hkey : key.read = .ok "fields")
    (h : FieldDef.shape.RearrangedList d d') : EntryRearranged (key, d) (key, d')
  | methods {key : StringLexeme} {d d' : Doc} (hkey : key.read = .ok "methods")
    (h : MethodDef.shape.RearrangedList d d') : EntryRearranged (key, d) (key, d')
  | foreign {key : StringLexeme} {d : Doc} (hkey : shape.Foreign key) :
    EntryRearranged (key, d) (key, d)

/-- The second document has the records of the first one. The keys of the document and of each
record may come in another order, and any other keys may stand among them. -/
def Rearranged : Doc → Doc → Prop := shape.Rearranged EntryRearranged

/-- A list of the document gives the same if its records are rearranged. -/
theorem gives_of_rearrangedList {α : Type} {record : Shape α} {key : StringLexeme} {name : String}
    {d d' : Doc} {put : List α → Snapshot → Snapshot} {gift : Option (Gift Snapshot)}
    (hkey : key.read = .ok name)
    (hslot : shape.slot? name = some (.optional name (.list record.read) put))
    (hlist : ∀ {as : List α}, Reader.list record.read d = .ok as →
      Reader.list record.read d' = .ok as)
    (h : shape.Gives (key, d) gift) : shape.Gives (key, d') gift := by
  cases h with
  | known hkey' hslot' hread =>
    rw [hkey] at hkey'
    cases hkey'
    rw [hslot] at hslot'
    cases hslot'
    obtain ⟨as, has, rfl⟩ := map_eq_ok_iff.mp hread
    refine .known hkey hslot ?_
    show (Reader.list record.read d').map put = _
    rw [hlist has]
    rfl
  | foreign hkey' hslot' _ _ =>
    rw [hkey] at hkey'
    cases hkey'
    rw [hslot] at hslot'
    cases hslot'

theorem EntryRearranged.gives {e e' : StringLexeme × Doc}
    {gift : Option (Gift Snapshot)} (h : EntryRearranged e e')
    (hsound : e'.2.Sound) (hgift : shape.Gives e gift) : shape.Gives e' gift := by
  cases h with
  | classes hkey h =>
    exact gives_of_rearrangedList hkey rfl (h.read ClassRecord.commutes rfl hsound) hgift
  | fields hkey h =>
    exact gives_of_rearrangedList hkey rfl (h.read FieldDef.commutes rfl hsound) hgift
  | methods hkey h =>
    exact gives_of_rearrangedList hkey rfl (h.read MethodDef.commutes rfl hsound) hgift
  | foreign => exact hgift

/-- A text that is accepted is valid JSON, and the text of any other arrangement of its document
is accepted too and holds the same snapshot. -/
theorem ofText_rearranged {text : String} {s : Snapshot} (h : ofText text = .ok s) :
    (∃ d : Doc, d.WrittenAs text) ∧
      ∀ (d d' : Doc) (text' : String), d.WrittenAs text → Rearranged d d' → d'.WrittenAs text' →
        ofText text' = .ok s := by
  constructor
  · obtain ⟨d, hd, -⟩ := Reader.Careful.exists_written careful_read h
    exact ⟨d, hd⟩
  · intro d d' text' htext hd htext'
    rw [ofText, htext.read] at h
    rw [ofText, htext'.read]
    exact Shape.Rearranged.read EntryRearranged.gives hd commutes rfl htext'.sound h

/-- A record whose keys come in another order, with a foreign key among them, behind a foreign key
of the document that holds something by the name of a field. -/
theorem ofText_rearranged_dog :
    let name : String × Value := ("name", .string "Dog")
    let parent : String × Value := ("super", .string "Animal")
    let tags : String × Value := ("tags", .array [.array [], .null])
    let note : String × Value := ("note", .object [("classes", .number 7)])
    let v : Value := .object [("classes", .array [.object [name, parent]])]
    let v' : Value := .object [note, ("classes", .array [.object [parent, tags, name]])]
    let s : Snapshot := { classes := [{ name := "Dog", superName := some "Animal" }] }
    ofText (v.text .compact) = .ok s ∧ ofText (v'.text .indented) = .ok s := by
  intro name parent tags note v v' s
  have h : ofText (v.text .compact) = .ok s := by
    rw [ofText, (v.written_text .compact).read]
    rfl
  have htags : ∀ e ∈ Value.entryDocs [tags], ClassRecord.shape.Foreign e.1 :=
    List.forall_mem_singleton.mpr ⟨"tags", rfl, by decide⟩
  have hnote : ∀ e ∈ Value.entryDocs [note], shape.Foreign e.1 :=
    List.forall_mem_singleton.mpr ⟨"note", rfl, by decide⟩
  have hrecord : ClassRecord.shape.Rearranged (· = ·) (Value.object [name, parent]).doc
      (Value.object [parent, tags, name]).doc :=
    .intro (List.forall₂_refl _) htags
      (List.perm_append_singleton _ (Value.entryDocs [parent, tags]))
  refine ⟨h, (ofText_rearranged h).2 v.doc v'.doc _ (v.written_text .compact) ?_
    (v'.written_text .indented)⟩
  exact .intro (.cons (.classes rfl (.intro (.cons hrecord .nil))) .nil) hnote
    (List.Perm.swap _ _ _)

end Snapshot

end Lineage
