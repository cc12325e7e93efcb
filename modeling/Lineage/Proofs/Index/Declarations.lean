import Mathlib.Data.List.Sort
import Lineage.Proofs.Index
import Lineage.Proofs.Text
import Lineage.Snapshot

/-!
# The declarations in an index

An index is made from a sequence of declarations, and every query can be answered from the sequence
itself: a class by the first of its records, a list of members by going through the sequence. So the
order between a class, its fields and its methods does not matter; only that within each kind does.
-/

namespace Lineage

inductive Declaration where
  | record (r : ClassRecord)
  | field (f : FieldDef)
  | method (m : MethodDef)
  deriving DecidableEq

namespace Declaration

/-- The class that a declaration is about. -/
def className : Declaration → String
  | record r => r.name
  | field f => f.className
  | method m => m.className

/-- The class records of a sequence. -/
def records (ds : List Declaration) : List ClassRecord :=
  ds.filterMap fun | record r => some r | _ => none

def fields (ds : List Declaration) : List FieldDef :=
  ds.filterMap fun | field f => some f | _ => none

/-- The methods of a sequence, instance and static ones. -/
def methods (ds : List Declaration) : List MethodDef :=
  ds.filterMap fun | method m => some m | _ => none

section
variable (ds : List Declaration) (d : Declaration)

@[simp] theorem records_append_singleton :
    records (ds ++ [d]) = records ds ++ match d with | record r => [r] | _ => [] := by
  cases d <;> simp [records]

@[simp] theorem fields_append_singleton :
    fields (ds ++ [d]) = fields ds ++ match d with | field f => [f] | _ => [] := by
  cases d <;> simp [fields]

@[simp] theorem methods_append_singleton :
    methods (ds ++ [d]) = methods ds ++ match d with | method m => [m] | _ => [] := by
  cases d <;> simp [methods]

end

end Declaration

/-- The declarations of a snapshot, in the order in which they are added. -/
def Snapshot.declarations (s : Snapshot) : List Declaration :=
  s.classes.map .record ++ s.fields.map .field ++ s.methods.map .method

namespace Index

open Declaration

def add (ix : Index) : Declaration → Index
  | .record r => ix.addClass r
  | .field f => ix.addField f
  | .method m => ix.addMethod m

/-- The index made by adding these declarations one after the other. -/
def ofDeclarations (ds : List Declaration) : Index := ds.foldl add empty

theorem entry_empty (c : String) : empty.entry c = {} := by simp [entry, empty]

theorem entry_update (ix : Index) (className : String) (f : Entry → Entry)
    (hf : ∀ e : Entry, e.DeclaredOn className → (f e).DeclaredOn className) (c : String) :
    (ix.update className f hf).entry c =
      if className = c then f (ix.entry className) else ix.entry c := by
  rw [entry, update, Std.TreeMap.getElem?_insert]
  by_cases h : className = c <;> simp [h, entry]

theorem entry_add_of_ne {ix : Index} {d : Declaration} {c : String} (h : d.className ≠ c) :
    (ix.add d).entry c = ix.entry c := by
  cases d with
  | record r => exact (ix.entry_update r.name _ _ c).trans (if_neg h)
  | field f => exact (ix.entry_update f.className _ _ c).trans (if_neg h)
  | method m => exact (ix.entry_update m.className _ _ c).trans (if_neg h)

theorem entry_foldl_add (ix : Index) {ds : List Declaration} {c : String}
    (h : ∀ d ∈ ds, d.className ≠ c) : (ds.foldl add ix).entry c = ix.entry c := by
  induction ds generalizing ix with
  | nil => rfl
  | cons d ds ih =>
    rw [List.foldl_cons, ih _ fun d' hd' => h d' (List.mem_cons_of_mem _ hd')]
    exact entry_add_of_ne (h d List.mem_cons_self)

/-- What an index holds under one name, from the declarations that were added to it. -/
structure Entry.Holds (c : String) (ds : List Declaration) (e : Entry) : Prop where
  record : e.record = (records ds).find? (·.name == c)
  fields : e.fields.toList = (Declaration.fields ds).filter (·.className == c)
  methods : e.methods.toList =
    (Declaration.methods ds).filter fun m => m.className == c && !m.isStatic
  statics : e.statics.toList =
    (Declaration.methods ds).filter fun m => m.className == c && m.isStatic

theorem holds_empty (c : String) : (empty.entry c).Holds c [] := by
  rw [entry_empty]
  exact ⟨rfl, rfl, rfl, rfl⟩

/-- One more declaration goes to the entry of its class, and there to its table. -/
theorem Entry.Holds.add {ix : Index} {c : String} {ds : List Declaration}
    (h : (ix.entry c).Holds c ds) (d : Declaration) :
    ((ix.add d).entry c).Holds c (ds ++ [d]) := by
  cases d with
  | record r =>
    rw [Index.add, addClass, entry_update]
    split
    · next hc =>
      subst hc
      constructor <;> simp [h.record, h.fields, h.methods, h.statics]
    · next hc => constructor <;> simp [h.record, h.fields, h.methods, h.statics, hc]
  | field f =>
    rw [Index.add, addField, entry_update]
    split
    · next hc =>
      subst hc
      constructor <;> simp [h.record, h.fields, h.methods, h.statics]
    · next hc => constructor <;> simp [h.record, h.fields, h.methods, h.statics, hc]
  | method m =>
    rw [Index.add, addMethod, entry_update]
    split
    · next hc =>
      subst hc
      cases hm : m.isStatic <;>
        constructor <;> simp [h.record, h.fields, h.methods, h.statics, hm]
    · next hc => constructor <;> simp [h.record, h.fields, h.methods, h.statics, hc]

theorem holds_ofDeclarations (ds : List Declaration) (c : String) :
    ((ofDeclarations ds).entry c).Holds c ds := by
  induction ds using List.reverseRecOn with
  | nil => exact holds_empty c
  | append_singleton ds d ih =>
    rw [ofDeclarations, List.foldl_append]
    exact ih.add d

/-! ## Queries -/

section
variable (ds : List Declaration) (c : String) (x : Scope)

theorem class?_ofDeclarations :
    (ofDeclarations ds).class? c x =
      ((records ds).find? (·.name == c)).filter (x.accepts ·.origin) := by
  rw [class?, (holds_ofDeclarations ds c).record]

theorem fields_ofDeclarations :
    (ofDeclarations ds).fields c x =
      (Declaration.fields ds).filter fun f => x.accepts f.origin && f.className == c := by
  rw [Index.fields, (holds_ofDeclarations ds c).fields, List.filter_filter]

theorem methods_ofDeclarations :
    (ofDeclarations ds).methods c x = (Declaration.methods ds).filter fun m =>
      x.accepts m.origin && (m.className == c && !m.isStatic) := by
  rw [Index.methods, (holds_ofDeclarations ds c).methods, List.filter_filter]

theorem statics_ofDeclarations :
    (ofDeclarations ds).statics c x = (Declaration.methods ds).filter fun m =>
      x.accepts m.origin && (m.className == c && m.isStatic) := by
  rw [Index.statics, (holds_ofDeclarations ds c).statics, List.filter_filter]

theorem mem_classNames_ofDeclarations :
    c ∈ (ofDeclarations ds).classNames ↔ ∃ r ∈ records ds, r.name = c := by
  rw [mem_classNames, (holds_ofDeclarations ds c).record, List.find?_isSome]
  simp

end

theorem sorted_classNames (ix : Index) : ix.classNames.Pairwise (· < ·) := by
  refine List.pairwise_map.mpr (List.Pairwise.filter _ ?_)
  have hkeys : ix.entries.toList.Pairwise fun p q => compare p.1 q.1 = .lt :=
    Std.TreeMap.ordered_keys_toList
  exact hkeys.imp fun h => compareOfLessAndEq_eq_lt.mp h

end Index

theorem Snapshot.index_eq_ofDeclarations (s : Snapshot) :
    s.index = .ofDeclarations s.declarations := by
  have hclasses : ∀ (rs : List ClassRecord) (log : Array Event) (ix : Index),
      (addClasses log ix rs).2 = rs.foldl .addClass ix := by
    intro rs
    induction rs with
    | nil => exact fun _ _ => rfl
    | cons r rs ih => exact fun _ _ => ih _ _
  rw [index, build, Index.ofDeclarations, declarations]
  simp only [List.foldl_append, List.foldl_map, hclasses]
  rfl

namespace Index

open Declaration

/-- Every query of an index, from the sequence of declarations that it was made of. Sequences with
the same records, the same fields and the same methods cannot be told apart. -/
theorem queries_ofDeclarations (ds : List Declaration) :
    let ix := ofDeclarations ds
    (∀ c x, ix.class? c x = ((records ds).find? (·.name == c)).filter (x.accepts ·.origin)) ∧
      (∀ c x, ix.fields c x =
        (Declaration.fields ds).filter fun f => x.accepts f.origin && f.className == c) ∧
      (∀ c x, ix.methods c x = (Declaration.methods ds).filter fun m =>
        x.accepts m.origin && (m.className == c && !m.isStatic)) ∧
      (∀ c x, ix.statics c x = (Declaration.methods ds).filter fun m =>
        x.accepts m.origin && (m.className == c && m.isStatic)) ∧
      (∀ c name x, ix.field? c name x = (ix.fields c x).find? (·.name == name)) ∧
      (∀ c name x, ix.method? c name x = (ix.methods c x).find? (·.name == name)) ∧
      (∀ c name x, ix.static? c name x = (ix.statics c x).find? (·.name == name)) ∧
      ix.classNames.Pairwise (fun a b => Text.utf8 a < Text.utf8 b) ∧
      (∀ c, c ∈ ix.classNames ↔ ∃ r ∈ records ds, r.name = c) ∧
      ix.classCount = ix.classNames.length ∧
      (∀ s : Snapshot, s.index = ofDeclarations s.declarations) ∧
      ∀ es, records es = records ds → Declaration.fields es = Declaration.fields ds →
        Declaration.methods es = Declaration.methods ds →
        (ofDeclarations es).catalog = ix.catalog ∧ (ofDeclarations es).classNames = ix.classNames ∧
          (ofDeclarations es).classCount = ix.classCount := by
  refine ⟨class?_ofDeclarations ds, fields_ofDeclarations ds, methods_ofDeclarations ds,
    statics_ofDeclarations ds, fun _ _ _ => field?_eq_find?, fun _ _ _ => method?_eq_find?,
    fun _ _ _ => static?_eq_find?, (sorted_classNames _).imp Text.utf8_lt_iff.mpr,
    mem_classNames_ofDeclarations ds, (length_classNames _).symm,
    Snapshot.index_eq_ofDeclarations, fun es hr hf hm => ?_⟩
  have hnames : (ofDeclarations es).classNames = (ofDeclarations ds).classNames :=
    (sorted_classNames _).eq_of_mem_iff (sorted_classNames _) fun c => by
      rw [mem_classNames_ofDeclarations, mem_classNames_ofDeclarations, hr]
  refine ⟨Catalog.eq_of_agrees fun x => agrees_of_lists ?_ ?_ ?_ ?_, hnames, ?_⟩
  · simp only [class?_ofDeclarations, hr, implies_true]
  · simp only [fields_ofDeclarations, hf, implies_true]
  · simp only [methods_ofDeclarations, hm, implies_true]
  · simp only [statics_ofDeclarations, hm, implies_true]
  · rw [← length_classNames, ← length_classNames, hnames]

/-- A field that comes before its class, and a record that comes too late. -/
theorem queries_interleaved :
    let a : Declaration := .record { name := "A", superName := some "B" }
    let late : Declaration := .record { name := "A" }
    let x : Declaration := .field { name := "x", className := "A" }
    let new : Declaration := .method { name := "new", className := "A", isStatic := true }
    let ds := [a, late, x, new]
    let es := [new, x, a, late]
    records es = records ds ∧ Declaration.fields es = Declaration.fields ds ∧
      Declaration.methods es = Declaration.methods ds ∧
      (ofDeclarations es).catalog = (ofDeclarations ds).catalog := by
  intro a late x new ds es
  obtain ⟨-, -, -, -, -, -, -, -, -, -, -, h⟩ := queries_ofDeclarations ds
  exact ⟨rfl, rfl, rfl, (h es rfl rfl rfl).1⟩

end Index

end Lineage
