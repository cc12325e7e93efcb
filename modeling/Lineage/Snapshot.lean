import Lineage.Declaration
import Lineage.Index
import Lineage.Json.Shape
import Lineage.Json.Value

/-!
# Snapshots of an index

The declarations of a project as a scanner hands them over: three lists in one JSON document. What is
absent in a record has no key; all other fields are always written.
-/

namespace Lineage

open Json

def Origin.read : Reader Origin := .oneOf known

def Scope.read : Reader Scope := .oneOf known

def Origin.toJson (o : Origin) : Value := .string o.word

def TypeSet.read : Reader TypeSet := fun d => (Reader.set .string d).map ofList

def TypeSet.toJson (ts : TypeSet) : Value := .ofNames ts.names

namespace ClassRecord

def shape : Shape ClassRecord where
  title := "struct ClassRecord"
  blank := { name := "" }
  slots := [
    .required "name" .string fun name r => { r with name },
    .optional "super" (.optional .string) fun superName r => { r with superName },
    .optional "origin" Origin.read fun origin r => { r with origin }]

def toJson (r : ClassRecord) : Value :=
  .object ([("name", .string r.name)] ++
    Value.optionalEntry "super" .string r.superName ++
    [("origin", r.origin.toJson)])

end ClassRecord

namespace FieldDef

def shape : Shape FieldDef where
  title := "struct FieldDef"
  blank := { name := "", className := "" }
  slots := [
    .required "name" .string fun name f => { f with name },
    .required "class" .string fun className f => { f with className },
    .optional "types" (.optional TypeSet.read) fun types f => { f with types },
    .optional "origin" Origin.read fun origin f => { f with origin }]

def toJson (f : FieldDef) : Value :=
  .object ([("name", .string f.name), ("class", .string f.className)] ++
    Value.optionalEntry "types" TypeSet.toJson f.types ++
    [("origin", f.origin.toJson)])

end FieldDef

namespace MethodDef

def shape : Shape MethodDef where
  title := "struct MethodDef"
  blank := { name := "", className := "" }
  slots := [
    .required "name" .string fun name m => { m with name },
    .required "class" .string fun className m => { m with className },
    .optional "params" (.list .string) fun params m => { m with params },
    .optional "static" .boolean fun isStatic m => { m with isStatic },
    .optional "origin" Origin.read fun origin m => { m with origin }]

def toJson (m : MethodDef) : Value :=
  .object [("name", .string m.name), ("class", .string m.className),
    ("params", .ofNames m.params), ("static", .bool m.isStatic), ("origin", m.origin.toJson)]

end MethodDef

structure Snapshot where
  classes : List ClassRecord := []
  fields : List FieldDef := []
  methods : List MethodDef := []
  deriving DecidableEq

namespace Snapshot

def shape : Shape Snapshot where
  title := "struct IndexSnapshot"
  blank := {}
  slots := [
    .optional "classes" (.list ClassRecord.shape.read) fun classes s => { s with classes },
    .optional "fields" (.list FieldDef.shape.read) fun fields s => { s with fields },
    .optional "methods" (.list MethodDef.shape.read) fun methods s => { s with methods }]

def ofText (text : String) : Except ReadError Snapshot := Reader.ofText shape.read text

def toJson (s : Snapshot) : Value :=
  .object [("classes", .array (s.classes.map ClassRecord.toJson)),
    ("fields", .array (s.fields.map FieldDef.toJson)),
    ("methods", .array (s.methods.map MethodDef.toJson))]

/-- The text of the snapshot, which `ofText` reads back. -/
def text (s : Snapshot) : String := s.toJson.text .compact

def addClasses (log : Array Event) (ix : Index) : List ClassRecord → Array Event × Index
  | [] => (log, ix)
  | r :: rs =>
    let log := match ix.duplicate? r with
      | some e => log.push e
      | none => log
    addClasses log (ix.addClass r) rs

/-- The index of all declarations, with the events of building it. -/
def build (s : Snapshot) : Array Event × Index :=
  let (log, ix) := addClasses #[] .empty s.classes
  (log, s.methods.foldl .addMethod (s.fields.foldl .addField ix))

def index (s : Snapshot) : Index := s.build.2

end Snapshot

end Lineage
