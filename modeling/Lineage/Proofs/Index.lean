import Lineage.Index

/-!
# Looking into an index

The look-up of an exact name finds the first declaration with that name in the list of those that
are visible. Whatever a look-up finds is declared on the class that was asked for.

Two catalogs may differ and still agree in one scope, or on one class. Indexes agree as soon as
their lists and their classes do, since an exact name is looked up in a list; for the same reason
the lists of an index make the whole of its catalog.
-/

namespace Lineage.Index

section
variable {ix : Index} {className name : String} {x : Scope}

theorem field?_eq_find? :
    ix.field? className name x = (ix.fields className x).find? (·.name == name) := by
  simp [field?, fields, Bool.beq_eq_decide_eq]

theorem method?_eq_find? :
    ix.method? className name x = (ix.methods className x).find? (·.name == name) := by
  simp [method?, methods, Bool.beq_eq_decide_eq]

theorem static?_eq_find? :
    ix.static? className name x = (ix.statics className x).find? (·.name == name) := by
  simp [static?, statics, Bool.beq_eq_decide_eq]

theorem name_of_class? {r : ClassRecord} (h : ix.class? className x = some r) :
    r.name = className := by
  obtain ⟨h, -⟩ := Option.filter_eq_some_iff.mp h
  exact (ix.declaredOn_entry className).record r h

theorem className_of_mem_fields {f : FieldDef} (h : f ∈ ix.fields className x) :
    f.className = className := by
  obtain ⟨h, -⟩ := List.mem_filter.mp h
  exact (ix.declaredOn_entry className).fields f (Array.mem_toList_iff.mp h)

theorem className_of_mem_methods {m : MethodDef} (h : m ∈ ix.methods className x) :
    m.className = className ∧ m.isStatic = false := by
  obtain ⟨h, -⟩ := List.mem_filter.mp h
  exact (ix.declaredOn_entry className).methods m (Array.mem_toList_iff.mp h)

theorem className_of_mem_statics {m : MethodDef} (h : m ∈ ix.statics className x) :
    m.className = className ∧ m.isStatic = true := by
  obtain ⟨h, -⟩ := List.mem_filter.mp h
  exact (ix.declaredOn_entry className).statics m (Array.mem_toList_iff.mp h)

theorem mem_classNames : name ∈ ix.classNames ↔ (ix.entry name).record.isSome = true := by
  simp only [classNames, List.mem_map, List.mem_filter, entry]
  constructor
  · rintro ⟨⟨n, e⟩, ⟨hmem, hr⟩, rfl⟩
    rw [Std.TreeMap.mem_toList_iff_getElem?_eq_some] at hmem
    simpa [hmem] using hr
  · intro h
    cases he : ix.entries[name]? with
    | none => simp [he] at h
    | some e =>
      rw [he] at h
      exact ⟨(name, e), ⟨Std.TreeMap.mem_toList_iff_getElem?_eq_some.mpr he, h⟩, rfl⟩

theorem mem_classNames_of_class? {r : ClassRecord} (h : ix.class? name x = some r) :
    name ∈ ix.classNames := by
  obtain ⟨h, -⟩ := Option.filter_eq_some_iff.mp h
  rw [mem_classNames, h, Option.isSome_some]

end

theorem length_classNames (ix : Index) : ix.classNames.length = ix.classCount := by
  have h : ∀ (l : List (String × Entry)) (n : Nat),
      l.foldl (fun n p => if p.2.record.isSome then n + 1 else n) n =
        n + (l.filter fun p => p.2.record.isSome).length := by
    intro l
    induction l with
    | nil => simp
    | cons p l ih =>
      intro n
      by_cases hp : p.2.record.isSome
      · simp only [List.foldl_cons, ih, hp, List.filter_cons, ↓reduceIte, List.length_cons]
        omega
      · simp [ih, hp]
  rw [classCount, Std.TreeMap.foldl_eq_foldl_toList, h, classNames, List.length_map, Nat.zero_add]

/-- Two classes that are each other's parent, and a field of the second. -/
def loop : Index :=
  ((empty.addClass { name := "A", superName := some "B" }).addClass
    { name := "B", superName := some "A" }).addField { name := "x", className := "B" }

end Lineage.Index

/-! ## Catalogs -/

namespace Lineage

/-- The catalogs give the same answers in the scope `x`. -/
structure Catalog.Agrees (x : Scope) (c c' : Catalog) : Prop where
  class? : ∀ name, c'.class? name x = c.class? name x
  fields : ∀ className, c'.fields className x = c.fields className x
  methods : ∀ className, c'.methods className x = c.methods className x
  statics : ∀ className, c'.statics className x = c.statics className x
  field? : ∀ className name, c'.field? className name x = c.field? className name x
  method? : ∀ className name, c'.method? className name x = c.method? className name x
  static? : ∀ className name, c'.static? className name x = c.static? className name x

/-- The catalogs give the same answers about one class in the scope `x`. -/
structure Catalog.AgreesAt (x : Scope) (c c' : Catalog) (className : String) : Prop where
  class? : c'.class? className x = c.class? className x
  fields : c'.fields className x = c.fields className x
  methods : c'.methods className x = c.methods className x
  statics : c'.statics className x = c.statics className x
  field? : ∀ name, c'.field? className name x = c.field? className name x
  method? : ∀ name, c'.method? className name x = c.method? className name x
  static? : ∀ name, c'.static? className name x = c.static? className name x

theorem Catalog.eq_of_agrees {c c' : Catalog} (h : ∀ x, c.Agrees x c') : c' = c := by
  cases c
  cases c'
  simp only [Catalog.mk.injEq, funext_iff]
  exact ⟨fun n x => (h x).class? n, fun n x => (h x).fields n, fun n x => (h x).methods n,
    fun n x => (h x).statics n, fun n m x => (h x).field? n m, fun n m x => (h x).method? n m,
    fun n m x => (h x).static? n m⟩

theorem Index.agrees_of_lists {ix ix' : Index} {x : Scope}
    (hclass : ∀ c, ix'.class? c x = ix.class? c x) (hfields : ∀ c, ix'.fields c x = ix.fields c x)
    (hmethods : ∀ c, ix'.methods c x = ix.methods c x)
    (hstatics : ∀ c, ix'.statics c x = ix.statics c x) : ix.catalog.Agrees x ix'.catalog where
  class? := hclass
  fields := hfields
  methods := hmethods
  statics := hstatics
  field? c name := by
    change ix'.field? c name x = ix.field? c name x
    rw [field?_eq_find?, field?_eq_find?, hfields]
  method? c name := by
    change ix'.method? c name x = ix.method? c name x
    rw [method?_eq_find?, method?_eq_find?, hmethods]
  static? c name := by
    change ix'.static? c name x = ix.static? c name x
    rw [static?_eq_find?, static?_eq_find?, hstatics]

/-- What an index says about a class is in the entry of the class. -/
theorem Index.agreesAt_of_entry {ix ix' : Index} {className : String}
    (h : ix'.entry className = ix.entry className) (x : Scope) :
    ix.catalog.AgreesAt x ix'.catalog className := by
  constructor <;>
    simp only [catalog, Index.class?, Index.fields, Index.methods, Index.statics, Index.field?,
      Index.method?, Index.static?, h, implies_true]

/-- What an index finds by itself is what is found by going through its lists. -/
theorem Index.listCatalog_eq_catalog (ix : Index) : ix.listCatalog = ix.catalog :=
  Catalog.eq_of_agrees fun _ =>
    { class? := fun _ => rfl
      fields := fun _ => rfl
      methods := fun _ => rfl
      statics := fun _ => rfl
      field? := fun _ _ => field?_eq_find?.symm
      method? := fun _ _ => method?_eq_find?.symm
      static? := fun _ _ => static?_eq_find?.symm }

end Lineage
