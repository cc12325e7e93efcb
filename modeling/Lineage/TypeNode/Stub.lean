import Lineage.Declaration
import Lineage.Text

/-!
# Stubs of nodes

Names as a stream of bytes. A name is a header of four bytes, least significant first, and its
UTF-8 text: the header 0 stands for no name, the header `n + 1` for a name of `n` bytes. A name
may have at most `maxNameSize` bytes, so that a corrupted header cannot ask for a huge read.

Writing goes to a sink that may be full before the end of a write; the bytes that fit stay. A
read says what was read and what is left of the stream, also when it fails. A node is persisted as
its name and the name of its parent. Its kind is not, so what is read back is always a declared
class.
-/

namespace Lineage.Stub

open Text (Bytes utf8 ofUtf8?)

def maxNameSize : Nat := 65536

inductive Part where
  | name
  | parent
  deriving DecidableEq

def Part.label : Part → String
  | name => "name"
  | parent => "super"

inductive Fault where
  | cutShort
  | sinkFull
  | invalidUtf8
  | nameTooLong (size : Nat)
  | missing (part : Part)
  deriving DecidableEq

def Fault.message : Fault → String
  | cutShort => "failed to fill whole buffer"
  | sinkFull => "failed to write whole buffer"
  | invalidUtf8 => "stub name is not valid UTF-8"
  | nameTooLong size =>
    "stub name of " ++ toString size ++ " bytes exceeds the " ++ toString maxNameSize ++
      " byte limit"
  | missing part => "required stub name `" ++ part.label ++ "` is absent"

/-- The header with value `n`, for `n` below 2^32. -/
def header (n : Nat) : Bytes :=
  [UInt8.ofNat n, UInt8.ofNat (n / 256), UInt8.ofNat (n / 65536), UInt8.ofNat (n / 16777216)]

def headerValue (a b c d : UInt8) : Nat :=
  a.toNat + 256 * b.toNat + 65536 * c.toNat + 16777216 * d.toNat

theorem headerValue_header {n : Nat} (h : n < 4294967296) :
    headerValue (UInt8.ofNat n) (UInt8.ofNat (n / 256)) (UInt8.ofNat (n / 65536))
      (UInt8.ofNat (n / 16777216)) = n := by
  simp only [headerValue, UInt8.toNat_ofNat']
  omega

/-- The bytes written so far and how many the sink can hold in all. -/
structure Sink where
  bytes : Bytes := []
  capacity : Option Nat := none

/-- Writes all of `bs`, or as much as there is room for. -/
def Sink.write (s : Sink) (bs : Bytes) : Except Fault Unit × Sink :=
  match s.capacity with
  | none => (.ok (), { s with bytes := s.bytes ++ bs })
  | some capacity =>
    let room := capacity - s.bytes.length
    (if bs.length ≤ room then .ok () else .error .sinkFull,
      { s with bytes := s.bytes ++ bs.take room })

/-- Writes a name, or the mark of an absent one. A name that is too long writes nothing. -/
def Sink.writeName (s : Sink) : Option String → Except Fault Unit × Sink
  | none => s.write (header 0)
  | some name =>
    let body := utf8 name
    if maxNameSize < body.length then (.error (.nameTooLong body.length), s)
    else match s.write (header (body.length + 1)) with
      | (.ok (), s) => s.write body
      | (.error e, s) => (.error e, s)

/-- The next `n` bytes. A read that runs out of bytes uses up all that are left. -/
def take (n : Nat) (bs : Bytes) : Except Fault Bytes × Bytes :=
  if n ≤ bs.length then (.ok (bs.take n), bs.drop n) else (.error .cutShort, [])

/-- The name after a header with value `n`. -/
def readBody (n : Nat) (bs : Bytes) : Except Fault (Option String) × Bytes :=
  if n = 0 then (.ok none, bs)
  else if maxNameSize < n - 1 then (.error (.nameTooLong (n - 1)), bs)
  else match take (n - 1) bs with
    | (.error e, rest) => (.error e, rest)
    | (.ok body, rest) =>
      match ofUtf8? body with
      | some name => (.ok (some name), rest)
      | none => (.error .invalidUtf8, rest)

def readName : Bytes → Except Fault (Option String) × Bytes
  | a :: b :: c :: d :: rest => readBody (headerValue a b c d) rest
  | _ => (.error .cutShort, [])

def readRequired (part : Part) (bs : Bytes) : Except Fault String × Bytes :=
  match readName bs with
  | (.ok (some name), rest) => (.ok name, rest)
  | (.ok none, rest) => (.error (.missing part), rest)
  | (.error e, rest) => (.error e, rest)

end Lineage.Stub

/-! ## Nodes -/

namespace Lineage.TypeNode

open Stub
open Text (Bytes)

def write (sink : Sink) (node : TypeNode) : Except Fault Unit × Sink :=
  match sink.writeName (some node.name) with
  | (.ok (), sink) => sink.writeName node.superName
  | (.error e, sink) => (.error e, sink)

def read (bs : Bytes) : Except Fault TypeNode × Bytes :=
  match readRequired .name bs with
  | (.error e, rest) => (.error e, rest)
  | (.ok name, rest) =>
    match readName rest with
    | (.error e, rest) => (.error e, rest)
    | (.ok superName, rest) => (.ok (.declared name superName), rest)

end Lineage.TypeNode
