import Lineage.Proofs.Index.Declarations
import Lineage.Proofs.Session.Indifference

/-!
# What stays of a library when it is hidden

A request that sees the project alone gets nothing that a library declares. Fields and methods of a
library might as well be absent. Not so its class records: the first record of a class stays, so
that of a library keeps out the project's own, and the project alone then has no such class.
-/

namespace Lineage

namespace Declaration

def origin : Declaration → Origin
  | record r => r.origin
  | field f => f.origin
  | method m => m.origin

/-- The first record of the class is a library's, although the project has one as well. -/
def eclipsed (ds : List Declaration) (c : String) : Bool :=
  ((records ds).find? (·.name == c)).any (·.origin == .library) &&
    (records ds).any fun r => r.name == c && r.origin == .project

/-- Is this a declaration of the project, and not the record of an eclipsed class? -/
def survives (ds : List Declaration) : Declaration → Bool
  | record r => r.origin == .project && !eclipsed ds r.name
  | field f => f.origin == .project
  | method m => m.origin == .project

/-- The declarations without those of libraries. -/
def ofProject (ds : List Declaration) : List Declaration := ds.filter (·.origin == .project)

/-- The declarations without those of libraries and without the records that these keep out. -/
def survivors (ds : List Declaration) : List Declaration := ds.filter (survives ds)

/-- To select before or after one kind of thing is picked out is the same. -/
theorem filterMap_filter_eq {α β : Type} {p : α → Bool} {q : β → Bool} {f : α → Option β}
    (h : ∀ a, ∀ b ∈ f a, p a = q b) (l : List α) :
    (l.filter p).filterMap f = (l.filterMap f).filter q := by
  rw [List.filterMap_filter, List.filter_filterMap]
  refine List.filterMap_congr fun a _ => ?_
  cases hf : f a with
  | none => simp
  | some b => simp [Option.filter, h a b hf]

section
variable (ds : List Declaration) (p : Declaration → Bool)

theorem records_filter : records (ds.filter p) = (records ds).filter fun r => p (.record r) :=
  filterMap_filter_eq (by rintro (_ | _ | _) _ ⟨⟩; rfl) ds

theorem fields_filter :
    Declaration.fields (ds.filter p) = (Declaration.fields ds).filter fun f => p (.field f) :=
  filterMap_filter_eq (by rintro (_ | _ | _) _ ⟨⟩; rfl) ds

theorem methods_filter :
    Declaration.methods (ds.filter p) = (Declaration.methods ds).filter fun m => p (.method m) :=
  filterMap_filter_eq (by rintro (_ | _ | _) _ ⟨⟩; rfl) ds

end

theorem survivors_eq_ofProject {ds : List Declaration} (h : ∀ c, eclipsed ds c = false) :
    survivors ds = ofProject ds := by
  refine List.filter_congr fun d _ => ?_
  cases d with
  | record r =>
    rw [survives, h, Bool.not_false, Bool.and_true]
    rfl
  | field f => rfl
  | method m => rfl

end Declaration

namespace Index

open Declaration

/-- In the scope `x` the indexes look alike. They answer each query alike, and a session over the
one is that over the other but for the catalog: after the same operations, each operation has the
same answer and leaves the same diagnostics, counters and log. -/
structure AlikeIn (x : Scope) (ix ix' : Index) : Prop where
  queries : ix.catalog.Agrees x ix'.catalog
  requests : ∀ (project : Nat) (limit : Option UInt32) (ops : List Session.Operation)
    (op : Session.Operation),
    let s := (Session.start ix.catalog ⟨project, x⟩ limit).performAll ops
    let s' := (Session.start ix'.catalog ⟨project, x⟩ limit).performAll ops
    s'.perform op = ((s.perform op).1, (s.perform op).2.withCatalog ix'.catalog)

/-- A session asks with its scope only. -/
theorem alikeIn_of_agrees {x : Scope} {ix ix' : Index} (h : ix.catalog.Agrees x ix'.catalog) :
    AlikeIn x ix ix' where
  queries := h
  requests project limit ops op := by
    intro s s'
    obtain ⟨hs, hc, hx⟩ := Session.indifferent_performAll h ops
      (Session.start ix.catalog ⟨project, x⟩ limit) rfl rfl
    have hs' : s' = s.withCatalog ix'.catalog := congrArg Prod.snd hs
    rw [hs']
    exact (Session.indifferent_perform h op s hc hx).1

/-- What the project sees of its own declarations is what it sees of all. -/
theorem filter_accepts_filter {α : Type} {origin : α → Origin} {p : α → Bool}
    (hp : ∀ a, p a = (origin a == .project)) (l : List α) (q : α → Bool) :
    (l.filter p).filter (fun a => Scope.project.accepts (origin a) && q a) =
      l.filter fun a => Scope.project.accepts (origin a) && q a := by
  rw [List.filter_filter]
  refine List.filter_congr fun a _ => ?_
  rw [hp, Scope.accepts_project, Bool.beq_eq_decide_eq, Bool.and_right_comm, Bool.and_self]

section
variable {ds : List Declaration} {p : Declaration → Bool}

theorem fields_filter_project (hp : ∀ f, p (.field f) = (f.origin == .project)) (c : String) :
    (ofDeclarations (ds.filter p)).fields c .project = (ofDeclarations ds).fields c .project := by
  rw [fields_ofDeclarations, fields_ofDeclarations, fields_filter]
  exact filter_accepts_filter hp _ _

theorem methods_filter_project (hp : ∀ m, p (.method m) = (m.origin == .project)) (c : String) :
    (ofDeclarations (ds.filter p)).methods c .project =
      (ofDeclarations ds).methods c .project := by
  rw [methods_ofDeclarations, methods_ofDeclarations, methods_filter]
  exact filter_accepts_filter hp _ _

theorem statics_filter_project (hp : ∀ m, p (.method m) = (m.origin == .project)) (c : String) :
    (ofDeclarations (ds.filter p)).statics c .project =
      (ofDeclarations ds).statics c .project := by
  rw [statics_ofDeclarations, statics_ofDeclarations, methods_filter]
  exact filter_accepts_filter hp _ _

end

/-! ## Classes -/

theorem find?_filter_of_pos {α : Type} {l : List α} {p q : α → Bool} {a : α}
    (h : l.find? q = some a) (hp : p a = true) : (l.filter p).find? q = some a := by
  obtain ⟨hq, as, bs, rfl, has⟩ := List.find?_eq_some_iff_append.mp h
  rw [List.find?_filter]
  refine List.find?_eq_some_iff_append.mpr ⟨by simp [hp, hq], as, bs, rfl, fun b hb => ?_⟩
  have hb : q b = false := by simpa using has b hb
  simp [hb]

theorem filter_find?_filter {α : Type} (l : List α) (p q : α → Bool) :
    ((l.filter p).find? q).filter p = (l.filter p).find? q := by
  cases h : (l.filter p).find? q with
  | none => rfl
  | some a => exact Option.filter_some_pos (List.mem_filter.mp (List.mem_of_find?_eq_some h)).2

section
variable {ds : List Declaration} {c : String}

/-- No selection has a class that none of the declarations is a record of. -/
theorem find?_records_filter (h : (records ds).find? (·.name == c) = none)
    (p : ClassRecord → Bool) : ((records ds).filter p).find? (·.name == c) = none :=
  List.find?_eq_none.mpr fun r hr => List.find?_eq_none.mp h r (List.mem_of_mem_filter hr)

theorem eclipsed_of_first_library {r : ClassRecord}
    (h : (records ds).find? (·.name == c) = some r) (hr : r.origin = .library) :
    eclipsed ds c = false ↔ ∀ r' ∈ records ds, r'.origin = .project → r'.name ≠ c := by
  simp only [eclipsed, h, Option.any_some, hr, beq_self_eq_true, Bool.true_and, List.any_eq_false,
    Bool.and_eq_true, beq_iff_eq, not_and']

theorem eclipsed_of_first_project {r : ClassRecord}
    (h : (records ds).find? (·.name == c) = some r) (hr : r.origin = .project) :
    eclipsed ds c = false := by
  simp [eclipsed, h, hr]

/-- Without the declarations of libraries, a class is the same unless it is eclipsed. -/
theorem class?_ofProject :
    (ofDeclarations (ofProject ds)).class? c .project = (ofDeclarations ds).class? c .project ↔
      eclipsed ds c = false := by
  simp only [class?_ofDeclarations, ofProject, records_filter, origin, Scope.accepts_project,
    ← Bool.beq_eq_decide_eq, filter_find?_filter]
  cases hfirst : (records ds).find? (·.name == c) with
  | none => simp [find?_records_filter hfirst, eclipsed, hfirst]
  | some r =>
    cases hr : r.origin with
    | project =>
      rw [find?_filter_of_pos hfirst (by simp [hr]), Option.filter_some_pos (by simp [hr])]
      simp [eclipsed_of_first_project hfirst hr]
    | library =>
      rw [Option.filter_some_neg (by simp [hr]), List.find?_eq_none,
        eclipsed_of_first_library hfirst hr]
      simp

theorem class?_survivors :
    (ofDeclarations (survivors ds)).class? c .project = (ofDeclarations ds).class? c .project := by
  simp only [class?_ofDeclarations, survivors, records_filter]
  cases hfirst : (records ds).find? (·.name == c) with
  | none => rw [find?_records_filter hfirst]
  | some r =>
    cases hr : r.origin with
    | project =>
      have hname : r.name = c := by simpa using List.find?_some hfirst
      rw [find?_filter_of_pos hfirst
        (by simp [survives, hr, hname, eclipsed_of_first_project hfirst hr])]
    | library =>
      -- The class is eclipsed if the project has a record of it, so none of those survives.
      have hnone : ((records ds).filter fun r => survives ds (.record r)).find? (·.name == c) =
          none := by
        refine List.find?_eq_none.mpr fun r' hr' hc => ?_
        obtain ⟨hmem, hs⟩ := List.mem_filter.mp hr'
        rw [survives, Bool.and_eq_true, Bool.not_eq_true', beq_iff_eq, beq_iff_eq.mp hc] at hs
        exact (eclipsed_of_first_library hfirst hr).mp hs.2 r' hmem hs.1 (beq_iff_eq.mp hc)
      rw [hnone, Option.filter_some_neg (by simp [hr]), Option.filter_none]

end

/-! ## Hiding and removing -/

/-- A project that hides its libraries is the same as one whose declarations are the survivors
alone. To remove the libraries only is the same for all members, and for a class just if it is not
eclipsed; so it cannot be told apart just if no class is. -/
theorem hiding_libraries (ds : List Declaration) :
    let ix := ofDeclarations ds
    let own := ofDeclarations (ofProject ds)
    AlikeIn .project ix (ofDeclarations (survivors ds)) ∧
      (∀ c, own.class? c .project = ix.class? c .project ↔ eclipsed ds c = false) ∧
      (∀ c, own.fields c .project = ix.fields c .project) ∧
      (∀ c, own.methods c .project = ix.methods c .project) ∧
      (∀ c, own.statics c .project = ix.statics c .project) ∧
      (∀ c name, own.field? c name .project = ix.field? c name .project) ∧
      (∀ c name, own.method? c name .project = ix.method? c name .project) ∧
      (∀ c name, own.static? c name .project = ix.static? c name .project) ∧
      (AlikeIn .project ix own ↔ ∀ c, eclipsed ds c = false) := by
  intro ix own
  have hfields : ∀ c, own.fields c .project = ix.fields c .project :=
    fields_filter_project fun _ => rfl
  have hmethods : ∀ c, own.methods c .project = ix.methods c .project :=
    methods_filter_project fun _ => rfl
  have hstatics : ∀ c, own.statics c .project = ix.statics c .project :=
    statics_filter_project fun _ => rfl
  have hsurvivors : AlikeIn .project ix (ofDeclarations (survivors ds)) :=
    alikeIn_of_agrees (agrees_of_lists (fun _ => class?_survivors)
      (fields_filter_project fun _ => rfl) (methods_filter_project fun _ => rfl)
      (statics_filter_project fun _ => rfl))
  refine ⟨hsurvivors, fun _ => class?_ofProject, hfields, hmethods, hstatics, ?_, ?_, ?_,
    fun h c => class?_ofProject.mp (h.queries.class? c), fun h => ?_⟩
  · exact fun c name => by rw [field?_eq_find?, field?_eq_find?, hfields]
  · exact fun c name => by rw [method?_eq_find?, method?_eq_find?, hmethods]
  · exact fun c name => by rw [static?_eq_find?, static?_eq_find?, hstatics]
  · rwa [survivors_eq_ofProject h] at hsurvivors

/-- A class that a library declares first: the project's own record of it is not found, but it is
once the library is removed. -/
theorem eclipsed_class :
    let ds : List Declaration :=
      [.record { name := "A", origin := .library }, .record { name := "A" }]
    (ofDeclarations ds).class? "A" .project = none ∧
      (ofDeclarations (ofProject ds)).class? "A" .project = some { name := "A" } ∧
      ¬ AlikeIn .project (ofDeclarations ds) (ofDeclarations (ofProject ds)) := by
  intro ds
  have hhidden : (ofDeclarations ds).class? "A" .project = none := by
    rw [class?_ofDeclarations]
    rfl
  have hfound : (ofDeclarations (ofProject ds)).class? "A" .project = some { name := "A" } := by
    rw [class?_ofDeclarations]
    rfl
  refine ⟨hhidden, hfound, fun h => ?_⟩
  have hsame : (ofDeclarations (ofProject ds)).class? "A" .project =
      (ofDeclarations ds).class? "A" .project := h.queries.class? "A"
  rw [hhidden, hfound] at hsame
  cases hsame

end Index

end Lineage
