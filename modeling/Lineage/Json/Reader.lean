import Lineage.Decimal
import Lineage.Json.Document
import Lineage.Json.Lexeme
import Lineage.Text.Quoted

/-!
# Readers

A reader turns a document into a value of some type. It goes through the document in the order of
the text and fails at the first problem, whether that is a fault of the text or a value of the
wrong kind; what comes after is not looked at. A value that nobody asks for is skipped, which asks
less of it than reading does.

A number without fraction and exponent is an integer if 64 bits hold it: unsigned, or signed and
below zero. All others are floating-point numbers, read with the digits that fit into 64 bits and
scaled by powers of ten, one after the other. A number too large for that is not a value.
-/

namespace Lineage.Json

inductive Found where
  | null
  | bool (b : Bool)
  | natural (n : Nat)
  | negative (n : Nat)
  | float (text : String)
  | string (s : String)
  | array
  | object
  deriving DecidableEq

def Found.text : Found → String
  | null => "null"
  | bool true => "boolean `true`"
  | bool false => "boolean `false`"
  | natural n => "integer `" ++ toString n ++ "`"
  | negative n => "integer `-" ++ toString n ++ "`"
  | float text => "floating point `" ++ text ++ "`"
  | string s => "string " ++ Text.quoted s
  | array => "sequence"
  | object => "map"

inductive ReadError where
  | malformed (fault : Fault)
  | invalidType (found : Found) (expected : String)
  | invalidValue (found : Found) (expected : String)
  /-- An array that stands for a record has too few items. -/
  | invalidLength (size : Nat) (expected : String)
  | missingField (key : String)
  | duplicateField (key : String)
  | unknownField (key : String) (known : List String)
  | unknownVariant (name : String) (known : List String)
  | notTruthWord (word : String)
  /-- A value that is of none of the alternatives that `type` has. -/
  | noAlternative (type : String)
  deriving DecidableEq

namespace ReadError

def inTicks (name : String) : String := "`" ++ name ++ "`"

def oneOf : List String → String
  | [a] => inTicks a
  | [a, b] => inTicks a ++ " or " ++ inTicks b
  | names => "one of " ++ ", ".intercalate (names.map inTicks)

def message : ReadError → String
  | malformed fault => fault.message
  | invalidType found expected => "invalid type: " ++ found.text ++ ", expected " ++ expected
  | invalidValue found expected => "invalid value: " ++ found.text ++ ", expected " ++ expected
  | invalidLength size expected =>
    "invalid length " ++ toString size ++ ", expected " ++ expected
  | missingField key => "missing field " ++ inTicks key
  | duplicateField key => "duplicate field " ++ inTicks key
  | unknownField key known => "unknown field " ++ inTicks key ++ ", expected " ++ oneOf known
  | unknownVariant name known =>
    "unknown variant " ++ inTicks name ++ ", expected " ++ oneOf known
  | notTruthWord word =>
    "invalid boolean value: '" ++ word ++ "'. Expected true, false, 'true', or 'false'"
  | noAlternative type => "data did not match any variant of untagged enum " ++ type

inductive Kind where
  | cutShort
  | malformed
  | wrongShape
  deriving DecidableEq

def kind : ReadError → Kind
  | malformed fault => if fault.isCut then .cutShort else .malformed
  | _ => .wrongShape

end ReadError

/-! ## Numbers -/

inductive NumberValue where
  | natural (n : Nat)
  | negative (n : Nat)
  | float (f : Float)

namespace Number

/-- The number that `n` becomes with the digits after it, as far as 64 bits hold it, and how many
digits that were. -/
def takeDigits (n used : Nat) : List Char → Nat × Nat
  | [] => (n, used)
  | c :: cs =>
    let n' := n * 10 + Decimal.digitValue c
    if n' < UInt64.size then takeDigits n' (used + 1) cs else (n, used)

/-- `10 ^ e` as a floating-point number, for `e` up to 308. -/
def power (e : Nat) : Float := Float.ofScientific 1 false e

def shrink (f : Float) (e : Nat) : Float :=
  if e ≤ 308 then f / power e
  else if f == 0.0 then f
  else shrink (f / power 308) (e - 308)
  termination_by e

def grow? (f : Float) (e : Nat) : Option Float :=
  if e ≤ 308 then
    let g := f * power e
    if g.isInf then none else some g
  else if f == 0.0 then some f
  else none

def scale? (f : Float) : Int → Option Float
  | .ofNat e => grow? f e
  | .negSucc e => some (shrink f (e + 1))

/-- The value of an exponent's digits; `none` from 2^31 on. -/
def exponentValue? (digits : List Char) : Option Nat :=
  let n := Decimal.appendDigits 0 digits
  if n < Nat.pow 2 31 then some n else none

def signed (negative : Bool) (f : Float) : Float := if negative then -f else f

def floatValue (n : Number) : Except Fault Float :=
  let (s, usedWhole) := takeDigits 0 0 n.whole
  let (s, usedFraction) := takeDigits s 0 n.fraction
  let start : Int := (n.whole.length - usedWhole : Nat) - (usedFraction : Int)
  let scaled (e : Int) : Except Fault Float :=
    match scale? s.toUInt64.toFloat e with
    | some f => .ok (signed n.negative f)
    | none => .error .numberOutOfRange
  match n.exponent with
  | none => scaled start
  | some (isNegative, digits) =>
    match exponentValue? digits with
    | some e => scaled (if isNegative then start - e else start + e)
    | none =>
      if s ≠ 0 ∧ !isNegative then .error .numberOutOfRange else .ok (signed n.negative 0.0)

def value (n : Number) : Except Fault NumberValue :=
  let (s, used) := takeDigits 0 0 n.whole
  if n.fraction.isEmpty ∧ n.exponent.isNone ∧ used = n.whole.length then
    if !n.negative then .ok (.natural s)
    else if 0 < s ∧ s ≤ Nat.pow 2 63 then .ok (.negative s)
    else .ok (.float (-s.toUInt64.toFloat))
  else n.floatValue.map .float

end Number

abbrev Reader (α : Type) := Doc → Except ReadError α

/-- The fault that a reader of items meets behind the last one. -/
def ArrayEnd.fault? : ArrayEnd → Option Fault
  | closed => none
  | cut => some .listCut
  | noComma => some .expectedListEnd
  | cutAfterComma => some .valueCut
  | trailingComma => some .trailingComma

def ObjectEnd.fault? : ObjectEnd → Option Fault
  | closed => none
  | cut => some .objectCut
  | noComma => some .expectedObjectEnd
  | cutAfterComma => some .valueCut
  | trailingComma => some .trailingComma
  | badKey _ => some .keyNotString

def ArrayEnd.skipFault? : ArrayEnd → Option Fault
  | trailingComma => some .expectedValue
  | e => e.fault?

def ObjectEnd.skipFault? : ObjectEnd → Option Fault
  | cutAfterComma => some .objectCut
  | trailingComma => some .keyNotString
  | e => e.fault?

def Doc.colonFault (atEnd : Bool) : Fault := if atEnd then .objectCut else .expectedColon

def noFault : Option Fault → Except ReadError Unit
  | none => .ok ()
  | some fault => .error (.malformed fault)

def StringLexeme.read (s : StringLexeme) : Except ReadError String :=
  s.text.mapError .malformed

def Number.read (n : Number) : Except ReadError NumberValue :=
  n.value.mapError .malformed

mutual

def Doc.skip : Doc → Except ReadError Unit
  | .null | .bool _ | .number _ => .ok ()
  | .string s => noFault s.ending.fault?
  | .array items ending => do
    skipItems items
    noFault ending.skipFault?
  | .object entries ending => do
    skipEntries entries
    noFault ending.skipFault?
  | .absent => noFault (some .valueCut)
  | .garbled t => noFault (some t.skipFault)
  | .noColon atEnd => noFault (some (Doc.colonFault atEnd))

def Doc.skipItems : List Doc → Except ReadError Unit
  | [] => .ok ()
  | d :: ds => do
    d.skip
    skipItems ds

def Doc.skipEntries : List (StringLexeme × Doc) → Except ReadError Unit
  | [] => .ok ()
  | (key, d) :: es => do
    noFault key.ending.fault?
    d.skip
    skipEntries es

end

mutual

/-- Reads a value of any kind in which containers are nested at most `room` deep. -/
def Doc.check (room : Nat) : Doc → Except ReadError Unit
  | .null | .bool _ => .ok ()
  | .number n => n.read.map fun _ => ()
  | .string s => s.read.map fun _ => ()
  | .array items ending =>
    match room with
    | 0 => noFault (some .nestingTooDeep)
    | room + 1 => do
      checkItems room items
      noFault ending.fault?
  | .object entries ending =>
    match room with
    | 0 => noFault (some .nestingTooDeep)
    | room + 1 => do
      checkEntries room entries
      noFault ending.fault?
  | .absent => noFault (some .valueCut)
  | .garbled t => noFault (some t.fault)
  | .noColon atEnd => noFault (some (Doc.colonFault atEnd))

def Doc.checkItems (room : Nat) : List Doc → Except ReadError Unit
  | [] => .ok ()
  | d :: ds => do
    d.check room
    checkItems room ds

def Doc.checkEntries (room : Nat) : List (StringLexeme × Doc) → Except ReadError Unit
  | [] => .ok ()
  | (key, d) :: es => do
    let _ ← key.read
    d.check room
    checkEntries room es

end

/-! ## Values of one kind -/

def NumberValue.found : NumberValue → Found
  | natural n => .natural n
  | negative n => .negative n
  | float f => .float (Decimal.text f)

/-- What stands in the place of a value of another kind. Arrays and objects are not looked into. -/
def Doc.found : Doc → Except ReadError Found
  | .null => .ok .null
  | .bool b => .ok (.bool b)
  | .number n => n.read.map NumberValue.found
  | .string s => s.read.map Found.string
  | .array _ _ => .ok .array
  | .object _ _ => .ok .object
  | .absent => .error (.malformed .valueCut)
  | .garbled t => .error (.malformed t.fault)
  | .noColon atEnd => .error (.malformed (colonFault atEnd))

def mismatch {α : Type} (expected : String) (d : Doc) : Except ReadError α := do
  throw (.invalidType (← d.found) expected)

namespace Reader

/-- A string; `expected` names what it stands for. -/
def text (expected : String) : Reader String
  | .string s => s.read
  | d => mismatch expected d

def string : Reader String := text "a string"

def boolean : Reader Bool
  | .bool b => .ok b
  | d => mismatch "a boolean" d

def word : Reader UInt32
  | .number n => do
    match ← n.read with
    | .natural k =>
      if k < UInt32.size then return UInt32.ofNat k else throw (.invalidValue (.natural k) "u32")
    | .negative k => throw (.invalidValue (.negative k) "u32")
    | .float f => throw (.invalidType (.float (Decimal.text f)) "u32")
  | d => mismatch "u32" d

def unit : Reader Unit
  | .null => .ok ()
  | d => mismatch "unit" d

/-- `null` stands for no value; its beginning can be nothing else. -/
def optional {α : Type} (read : Reader α) : Reader (Option α)
  | .null => .ok none
  | .garbled (.brokenNull atEnd) => .error (.malformed (Token.brokenNull atEnd).fault)
  | d => (read d).map some

def items {α : Type} (expected : String) (read : Reader α) : Reader (List α)
  | .array items ending => do
    let values ← items.mapM read
    noFault ending.fault?
    return values
  | d => mismatch expected d

def list {α : Type} (read : Reader α) : Reader (List α) := items "a sequence" read

def set {α : Type} (read : Reader α) : Reader (List α) := items "a set" read

def alternative {α : Type} (known : List (String × α)) (name : String) : Except ReadError α :=
  match known.lookup name with
  | some a => .ok a
  | none => .error (.unknownVariant name (known.map Prod.fst))

/-- The fault that lies behind an entry with which the object ought to end. -/
def afterOnlyEntry (others : List (StringLexeme × Doc)) (ending : ObjectEnd) : Option Fault :=
  match others, ending with
  | [], .closed => none
  | [], .cut => some .objectCut
  | _, _ => some .expectedValue

/-- One of some alternatives, given by its name or by an object with its name as the only key and
`null` as the value. -/
def oneOf {α : Type} (known : List (String × α)) : Reader α
  | .string s => do alternative known (← s.read)
  | .object ((key, d) :: others) ending => do
    let a ← alternative known (← key.read)
    unit d
    noFault (afterOnlyEntry others ending)
    return a
  | .object [] .cut => .error (.malformed .valueCut)
  | .object [] (.badKey _) => .error (.malformed .keyNotString)
  | .absent => .error (.malformed .valueCut)
  | .noColon atEnd => .error (.malformed (Doc.colonFault atEnd))
  | _ => .error (.malformed .expectedValue)

/-- Reads a text that holds one document and nothing else. -/
def ofText {α : Type} (read : Reader α) (text : String) : Except ReadError α := do
  let (d, rest) := Doc.ofText text
  let a ← read d
  if rest.isEmpty then return a else throw (.malformed .trailingCharacters)

end Reader

end Lineage.Json
