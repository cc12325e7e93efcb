import Mathlib.Data.List.Basic
import Lineage.Proofs.Stub

/-!
# Streams of items

Names and nodes are written to one sink in turn, up to the first that fails, and are read in turn
by a reader who knows which is which. Whatever goes through comes back. Where the sink was full, the
stream is torn in the item that failed, and reading this item says that the stream is cut short.
-/

namespace Lineage.Stub

open Text (Bytes)

inductive Item where
  | name (n : Option String)
  | node (n : TypeNode)
  deriving DecidableEq

/-- What a reader takes the next item for. -/
inductive Slot where
  | name
  | node
  deriving DecidableEq

def Slot.read : Slot → Bytes → Except Fault Item × Bytes
  | name, bs => (readName bs).map (·.map .name) id
  | node, bs => (TypeNode.read bs).map (·.map .node) id

namespace Item

def slot : Item → Slot
  | name _ => .name
  | node _ => .node

def write (sink : Sink) : Item → Except Fault Unit × Sink
  | name n => sink.writeName n
  | node n => n.write sink

/-- May the item be written? -/
def Fits : Item → Prop
  | name n => Stub.Fits n
  | node n => n.Fits

instance : DecidablePred Fits
  | name n => inferInstanceAs (Decidable (Stub.Fits n))
  | node n => inferInstanceAs (Decidable n.Fits)

/-- The bytes that stand for an item. -/
def bytes : Item → Bytes
  | name n => frame n
  | node n => n.record

/-- The item as it comes back. -/
def restored : Item → Item
  | name n => name n
  | node n => node n.restored

end Item

/-- How far a list of items got: those that went through, whether all did, and what the sink or the
stream was then. -/
structure Batch (α : Type) where
  items : List Item
  outcome : Except Fault Unit
  left : α

/-- Writes the items up to the first that fails. -/
def Sink.writeAll (sink : Sink) : List Item → Batch Sink
  | [] => ⟨[], .ok (), sink⟩
  | i :: is =>
    match i.write sink with
    | (.error e, sink) => ⟨[], .error e, sink⟩
    | (.ok (), sink) =>
      let batch := sink.writeAll is
      { batch with items := i :: batch.items }

/-- Reads an item for each slot up to the first that fails. -/
def readAll (bs : Bytes) : List Slot → Batch Bytes
  | [] => ⟨[], .ok (), bs⟩
  | slot :: slots =>
    match slot.read bs with
    | (.error e, bs) => ⟨[], .error e, bs⟩
    | (.ok i, bs) =>
      let batch := readAll bs slots
      { batch with items := i :: batch.items }

section
variable {i : Item} (h : i.Fits)
include h

theorem Item.write_eq_write (s : Sink) : i.write s = s.write i.bytes := by
  cases i with
  | name n => exact Sink.writeName_eq_write h s
  | node n => exact TypeNode.write_eq_write h s

theorem Slot.read_bytes_append (rest : Bytes) :
    i.slot.read (i.bytes ++ rest) = (.ok i.restored, rest) := by
  cases i with
  | name n =>
    simp only [Item.slot, Item.bytes, Slot.read, readName_frame_append h]
    rfl
  | node n =>
    simp only [Item.slot, Item.bytes, Slot.read, TypeNode.read_record_append h]
    rfl

theorem Slot.read_take_bytes {k : Nat} (hk : k < i.bytes.length) :
    i.slot.read (i.bytes.take k) = (.error .cutShort, []) := by
  cases i with
  | name n =>
    simp only [Item.slot, Item.bytes, Slot.read, readName_take_frame h hk]
    rfl
  | node n =>
    simp only [Item.slot, Item.bytes, Slot.read, TypeNode.read_take_record h hk]
    rfl

end

theorem Slot.read_nil (slot : Slot) : slot.read [] = (.error .cutShort, []) := by
  cases slot <;> rfl

section
variable {i : Item} {is : List Item} {s t : Sink}

theorem Sink.writeAll_of_ok (h : i.write s = (.ok (), t)) :
    s.writeAll (i :: is) = { t.writeAll is with items := i :: (t.writeAll is).items } := by
  rw [writeAll, h]

theorem Sink.writeAll_of_error {e : Fault} (h : i.write s = (.error e, t)) :
    s.writeAll (i :: is) = ⟨[], .error e, t⟩ := by
  rw [writeAll, h]

end

section
variable {items : List Item} (h : ∀ i ∈ items, i.Fits)
include h

/-- The items are written as if they were one piece. -/
theorem Sink.writeAll_eq_write (s : Sink) :
    s.write (items.flatMap Item.bytes) = ((s.writeAll items).outcome, (s.writeAll items).left) := by
  induction items generalizing s with
  | nil => exact s.write_nil
  | cons i is ih =>
    obtain ⟨hi, his⟩ := List.forall_mem_cons.mp h
    rw [List.flatMap_cons, write_append, ← Item.write_eq_write hi]
    rcases hwrite : i.write s with ⟨_ | _, t⟩
    · rw [writeAll_of_error hwrite]
    · rw [writeAll_of_ok hwrite]
      exact ih his t

/-- Behind the items that went through the sink holds nothing from which the next one is read. -/
theorem Sink.writeAll_torn (s : Sink) :
    let batch := s.writeAll items
    batch.items <+: items ∧ (batch.outcome = .ok () → batch.items = items) ∧
      ∃ torn, batch.left.bytes = s.bytes ++ (batch.items.flatMap Item.bytes ++ torn) ∧
        ∀ slot, (∀ i, items[batch.items.length]? = some i → i.slot = slot) →
          slot.read torn = (.error .cutShort, []) := by
  induction items generalizing s with
  | nil =>
    exact ⟨List.prefix_rfl, fun _ => rfl, [], (List.append_nil _).symm, fun slot _ => slot.read_nil⟩
  | cons i is ih =>
    obtain ⟨hi, his⟩ := List.forall_mem_cons.mp h
    have hwrite := Item.write_eq_write hi s
    rcases s.write_cases i.bytes with ⟨t, ht, hbytes⟩ | ⟨t, k, ht, hk, hbytes⟩
    · obtain ⟨hfront, hall, torn, hleft, hnext⟩ := ih his t
      rw [writeAll_of_ok (hwrite.trans ht)]
      refine ⟨(List.prefix_cons_inj i).mpr hfront, fun hok => congrArg (i :: ·) (hall hok), torn, ?_,
        fun slot hslot => hnext slot hslot⟩
      rw [hleft, hbytes, List.flatMap_cons, List.append_assoc, List.append_assoc]
    · rw [writeAll_of_error (hwrite.trans ht)]
      refine ⟨List.nil_prefix, nofun, i.bytes.take k, hbytes, fun slot hslot => ?_⟩
      rw [← hslot i rfl]
      exact Slot.read_take_bytes hi hk

theorem readAll_bytes_append (rest : Bytes) :
    readAll (items.flatMap Item.bytes ++ rest) (items.map Item.slot) =
      ⟨items.map Item.restored, .ok (), rest⟩ := by
  induction items with
  | nil => rfl
  | cons i is ih =>
    obtain ⟨hi, his⟩ := List.forall_mem_cons.mp h
    rw [List.flatMap_cons, List.append_assoc, List.map_cons, readAll, Slot.read_bytes_append hi]
    simp only [ih his]
    rfl

end

/-! ## Whole and torn streams -/

/-- Items that may be written are all written, and a reader who knows which of them are names and
which are nodes gets them back, with nothing of what follows. -/
theorem readAll_writeAll (items : List Item) (h : ∀ i ∈ items, i.Fits) (rest : Bytes) :
    let written := ({} : Sink).writeAll items
    written.items = items ∧ written.outcome = .ok () ∧
      readAll (written.left.bytes ++ rest) (items.map Item.slot) =
        ⟨items.map Item.restored, .ok (), rest⟩ := by
  intro written
  have hpiece := Sink.writeAll_eq_write h {}
  rw [Sink.write_unbounded, Prod.mk.injEq] at hpiece
  obtain ⟨hok, hsink⟩ := hpiece
  have hall : written.items = items := (Sink.writeAll_torn h {}).2.1 hok.symm
  have hbytes : written.left.bytes = items.flatMap Item.bytes := congrArg Sink.bytes hsink.symm
  refine ⟨hall, hok.symm, ?_⟩
  rw [hbytes]
  exact readAll_bytes_append h rest

/-- An absent name, an empty one and a node that was not declared, and then a byte that belongs to
none of them. -/
theorem readAll_mixed :
    let items : List Item := [.name none, .name (some ""), .name (some "é"),
      .node (.anonymous ⟨"a.lua", 3, "t"⟩)]
    (∀ i ∈ items, i.Fits) ∧
      readAll ((({} : Sink).writeAll items).left.bytes ++ [255]) [.name, .name, .name, .node] =
        ⟨[.name none, .name (some ""), .name (some "é"), .node (.declared "a.lua@(3)t" none)],
          .ok (), [255]⟩ := by
  intro items
  have hfits : ∀ i ∈ items, i.Fits := by decide +kernel
  exact ⟨hfits, (readAll_writeAll items hfits [255]).2.2⟩

/-- A sink that is full before the end keeps the beginning of the stream. What went through is read
back from it, and the next read says that the stream is cut short; it has to be a read of the item
that comes next, if there is one. -/
theorem readAll_torn (items : List Item) (h : ∀ i ∈ items, i.Fits) (capacity : Nat) :
    let stream := items.flatMap fun i => (i.write {}).2.bytes
    let written := ({ capacity := some capacity } : Sink).writeAll items
    written.left.bytes = stream.take (min capacity stream.length) ∧
      written.outcome = (if stream.length ≤ capacity then .ok () else .error .sinkFull) ∧
      written.items <+: items ∧ (written.outcome = .ok () → written.items = items) ∧
      ∃ torn,
        readAll written.left.bytes (written.items.map Item.slot) =
          ⟨written.items.map Item.restored, .ok (), torn⟩ ∧
        ∀ slot, (∀ i, items[written.items.length]? = some i → i.slot = slot) →
          slot.read torn = (.error .cutShort, []) := by
  intro stream written
  have hstream : stream = items.flatMap Item.bytes :=
    List.flatMap_congr fun i hi => by
      rw [Item.write_eq_write (h i hi), Sink.write_unbounded, List.nil_append]
  have hpiece := Sink.writeAll_eq_write h { capacity := some capacity }
  rw [← hstream] at hpiece
  simp only [Sink.write, List.length_nil, Nat.sub_zero, List.nil_append, Prod.mk.injEq] at hpiece
  obtain ⟨hok, hsink⟩ := hpiece
  have hkept : written.left.bytes = stream.take capacity := congrArg Sink.bytes hsink.symm
  obtain ⟨hfront, hall, torn, hleft, hnext⟩ := Sink.writeAll_torn h { capacity := some capacity }
  have hwritten : ∀ i ∈ written.items, i.Fits := fun i hi => h i (hfront.subset hi)
  have hbytes : written.left.bytes = written.items.flatMap Item.bytes ++ torn := hleft
  refine ⟨?_, hok.symm, hfront, hall, torn, ?_, hnext⟩
  · rw [hkept, List.take_eq_take_min]
  · rw [hbytes]
    exact readAll_bytes_append hwritten torn

/-- The second name of the node is torn in its header: what comes back is the name in front. -/
theorem readAll_torn_parent :
    let items : List Item := [.name (some "ab"), .node (.declared "c" (some "d")), .name none]
    let written := ({ capacity := some 13 } : Sink).writeAll items
    (∀ i ∈ items, i.Fits) ∧ written.items = [.name (some "ab")] ∧
      ∃ torn, readAll written.left.bytes [.name] = ⟨[.name (some "ab")], .ok (), torn⟩ ∧
        Slot.read .node torn = (.error .cutShort, []) := by
  intro items written
  have hfits : ∀ i ∈ items, i.Fits := by decide +kernel
  have hwritten : written.items = [.name (some "ab")] := by decide +kernel
  obtain ⟨-, -, -, -, torn, hread, hnext⟩ := readAll_torn items hfits 13
  have hread : readAll written.left.bytes (written.items.map Item.slot) =
      ⟨written.items.map Item.restored, .ok (), torn⟩ := hread
  rw [hwritten] at hread
  refine ⟨hfits, hwritten, torn, hread, hnext .node fun i hi => ?_⟩
  have hi : items[written.items.length]? = some i := hi
  rw [hwritten] at hi
  cases hi
  rfl

end Lineage.Stub
