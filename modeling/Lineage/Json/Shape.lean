import Lineage.Json.Reader

/-!
# Shapes of records

A record is read from an object, whose entries may come in any order, or from an array of its
fields in the order of its shape. A field that is not given keeps its value in the blank record
unless the shape requires it.
-/

namespace Lineage.Json

/-- A field of a record: what its value means for the record. -/
structure Slot (α : Type) where
  key : String
  isRequired : Bool
  read : Reader (α → α)

namespace Slot

def required {α β : Type} (key : String) (read : Reader β) (put : β → α → α) : Slot α where
  key := key
  isRequired := true
  read d := (read d).map put

def optional {α β : Type} (key : String) (read : Reader β) (put : β → α → α) : Slot α where
  key := key
  isRequired := false
  read d := (read d).map put

end Slot

structure Shape (α : Type) where
  title : String
  blank : α
  slots : List (Slot α)
  /-- Is a key that names no field refused, rather than passed over? -/
  isStrict : Bool := false

namespace Shape

variable {α : Type} (shape : Shape α)

def keys : List String := shape.slots.map Slot.key

def slot? (key : String) : Option (Slot α) := shape.slots.find? (·.key == key)

/-- Reads the entries of an object into `a`; the keys of fields met before are in `seen`. -/
def readEntries (seen : List String) (a : α) :
    List (StringLexeme × Doc) → Except ReadError (List String × α)
  | [] => .ok (seen, a)
  | (key, d) :: entries => do
    let key ← key.read
    match shape.slot? key with
    | some slot =>
      if key ∈ seen then throw (.duplicateField key)
      let put ← slot.read d
      readEntries (key :: seen) (put a) entries
    | none =>
      if shape.isStrict then throw (.unknownField key shape.keys)
      d.skip
      readEntries seen a entries

def missing? (seen : List String) : Option (Slot α) :=
  shape.slots.find? fun slot => slot.isRequired && !seen.contains slot.key

def readObject (entries : List (StringLexeme × Doc)) (ending : ObjectEnd) :
    Except ReadError α := do
  let (seen, a) ← shape.readEntries [] shape.blank entries
  noFault ending.fault?
  match shape.missing? seen with
  | some slot => throw (.missingField slot.key)
  | none => return a

def afterLast? : ArrayEnd → Option Fault
  | .closed => none
  | .cut => some .listCut
  | .trailingComma => some .trailingComma
  | .noComma | .cutAfterComma => some .trailingCharacters

def lengthText : String :=
  shape.title ++ " with " ++ toString shape.slots.length ++ " elements"

/-- Reads items into the fields from number `index` on. -/
def readItems (ending : ArrayEnd) (index : Nat) (a : α) :
    List (Slot α) → List Doc → Except ReadError α
  | [], [] => do
    noFault (afterLast? ending)
    return a
  | [], _ :: _ => throw (.malformed .trailingCharacters)
  | slot :: slots, [] => do
    noFault ending.fault?
    if slot.isRequired then throw (.invalidLength index shape.lengthText)
    readItems ending (index + 1) a slots []
  | slot :: slots, d :: ds => do
    let put ← slot.read d
    readItems ending (index + 1) (put a) slots ds

def read : Reader α
  | .object entries ending => shape.readObject entries ending
  | .array items ending => shape.readItems ending 0 shape.blank shape.slots items
  | d => mismatch shape.title d

end Shape

end Lineage.Json
