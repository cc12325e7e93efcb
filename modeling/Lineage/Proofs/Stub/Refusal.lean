import Lineage.Proofs.Stub.Stream
import Lineage.Proofs.Text

/-!
# Refused records

A sink without a bound refuses a node only for a name that is too long. The name of a node is
looked at before anything is written, and the name of its parent when its own name has been: a
record that is refused for its parent leaves the frame of its first name behind. What is written
after that is in step again behind this frame.
-/

namespace Lineage

open Stub
open Text (Bytes utf8)

namespace Stub

theorem Sink.writeName_of_not_fits {name : String} (h : ¬ Fits (some name)) (s : Sink) :
    s.writeName (some name) = (.error (.nameTooLong (utf8 name).length), s) :=
  if_pos (Nat.not_le.mp h)

/-- Items that are written behind others are read with them. -/
theorem readAll_writeAll_behind {front items : List Item} (hfront : ∀ i ∈ front, i.Fits)
    (hitems : ∀ i ∈ items, i.Fits) (bs rest : Bytes) :
    let written := (⟨bs ++ front.flatMap Item.bytes, none⟩ : Sink).writeAll items
    written.outcome = .ok () ∧ ∃ new, written.left.bytes = bs ++ new ∧
      readAll (new ++ rest) ((front ++ items).map Item.slot) =
        ⟨(front ++ items).map Item.restored, .ok (), rest⟩ := by
  intro written
  have hpiece := Sink.writeAll_eq_write hitems ⟨bs ++ front.flatMap Item.bytes, none⟩
  rw [Sink.write_unbounded, Prod.mk.injEq] at hpiece
  obtain ⟨hok, hsink⟩ := hpiece
  have hall : ∀ i ∈ front ++ items, i.Fits := fun i hi =>
    (List.mem_append.mp hi).elim (hfront i) (hitems i)
  refine ⟨hok.symm, (front ++ items).flatMap Item.bytes, ?_, readAll_bytes_append hall rest⟩
  have hbytes : written.left.bytes = bs ++ front.flatMap Item.bytes ++ items.flatMap Item.bytes :=
    congrArg Sink.bytes hsink.symm
  rw [hbytes, List.append_assoc, List.flatMap_append]

end Stub

namespace TypeNode

section
variable {n : TypeNode} (bs : Bytes)

theorem write_of_not_fits_name (h : ¬ Stub.Fits (some n.name)) :
    n.write ⟨bs, none⟩ = (.error (.nameTooLong (utf8 n.name).length), ⟨bs, none⟩) := by
  simp only [TypeNode.write, Sink.writeName_of_not_fits h]

theorem write_of_not_fits_parent {parent : String} (hname : Stub.Fits (some n.name))
    (hparent : n.superName = some parent) (h : ¬ Stub.Fits (some parent)) :
    n.write ⟨bs, none⟩ =
      (.error (.nameTooLong (utf8 parent).length), ⟨bs ++ frame (some n.name), none⟩) := by
  simp only [TypeNode.write, Sink.writeName_eq_write hname, Sink.write_unbounded, hparent,
    Sink.writeName_of_not_fits h]

end

/-- The ways in which a sink without a bound refuses a node. -/
theorem write_error_cases {n : TypeNode} {bs : Bytes} {e : Fault} {sink : Sink}
    (h : n.write ⟨bs, none⟩ = (.error e, sink)) :
    ¬ Stub.Fits (some n.name) ∧ e = .nameTooLong (utf8 n.name).length ∧ sink = ⟨bs, none⟩ ∨
      Stub.Fits (some n.name) ∧ ∃ parent, n.superName = some parent ∧
        ¬ Stub.Fits (some parent) ∧ e = .nameTooLong (utf8 parent).length ∧
        sink = ⟨bs ++ frame (some n.name), none⟩ := by
  by_cases hname : Stub.Fits (some n.name)
  · by_cases hsuper : Stub.Fits n.superName
    · rw [write_eq_write ⟨hname, hsuper⟩, Sink.write_unbounded] at h
      cases h
    · cases hparent : n.superName with
      | none =>
        rw [hparent] at hsuper
        exact absurd trivial hsuper
      | some parent =>
        rw [hparent] at hsuper
        rw [write_of_not_fits_parent bs hname hparent hsuper] at h
        cases h
        exact .inr ⟨hname, parent, rfl, hsuper, rfl, rfl⟩
  · rw [write_of_not_fits_name bs hname] at h
    cases h
    exact .inl ⟨hname, rfl, rfl⟩

/-- A sink without a bound refuses a node for its own name and is then as it was, or for the name
of its parent and then has the frame of its own name more. Nodes that are written afterwards come
back in their order, in the second case behind this name. -/
theorem write_refused (n : TypeNode) (bs : Bytes) (e : Fault) (sink : Sink)
    (h : n.write ⟨bs, none⟩ = (.error e, sink)) :
    ∃ remnant : List Item,
      (¬ Stub.Fits (some n.name) ∧ e = .nameTooLong (utf8 n.name).length ∧
          sink = ⟨bs, none⟩ ∧ remnant = [] ∨
        Stub.Fits (some n.name) ∧ ∃ parent, n.superName = some parent ∧
          ¬ Stub.Fits (some parent) ∧ e = .nameTooLong (utf8 parent).length ∧
          sink = ⟨bs ++ frame (some n.name), none⟩ ∧ remnant = [.name (some n.name)]) ∧
      ∀ nodes : List TypeNode, (∀ m ∈ nodes, m.Fits) → ∀ rest : Bytes,
        let written := sink.writeAll (nodes.map .node)
        let items := remnant ++ nodes.map .node
        written.outcome = .ok () ∧ ∃ new, written.left.bytes = bs ++ new ∧
          readAll (new ++ rest) (items.map Item.slot) =
            ⟨items.map Item.restored, .ok (), rest⟩ := by
  have hnodes : ∀ nodes : List TypeNode, (∀ m ∈ nodes, m.Fits) →
      ∀ i ∈ nodes.map Item.node, i.Fits := by
    intro nodes hfits i hi
    obtain ⟨m, hm, rfl⟩ := List.mem_map.mp hi
    exact hfits m hm
  rcases write_error_cases h with ⟨hname, he, rfl⟩ | ⟨hname, parent, hparent, hlong, he, rfl⟩
  · refine ⟨[], .inl ⟨hname, he, rfl, rfl⟩, fun nodes hfits rest => ?_⟩
    have hbehind := readAll_writeAll_behind (List.forall_mem_nil _) (hnodes nodes hfits) bs rest
    rwa [List.flatMap_nil, List.append_nil] at hbehind
  · refine ⟨[.name (some n.name)], .inr ⟨hname, parent, hparent, hlong, he, rfl, rfl⟩,
      fun nodes hfits rest => ?_⟩
    have hfront : ∀ i ∈ [Item.name (some n.name)], i.Fits := List.forall_mem_singleton.mpr hname
    have hbehind := readAll_writeAll_behind hfront (hnodes nodes hfits) bs rest
    rwa [List.flatMap_singleton] at hbehind

/-- A name that has one byte more than a name may have. -/
def tooLong : String := String.ofList (List.replicate (maxNameSize + 1) 'a')

theorem length_tooLong : (utf8 tooLong).length = 65537 := by
  have hbyte : String.utf8EncodeChar 'a' = [97] := rfl
  rw [Text.utf8_eq_flatMap, tooLong, String.toList_ofList, List.length_flatMap, List.map_replicate,
    List.sum_replicate_nat, hbyte]
  rfl

theorem not_fits_tooLong : ¬ Stub.Fits (some tooLong) := by
  show ¬ (utf8 tooLong).length ≤ maxNameSize
  rw [length_tooLong]
  decide

theorem write_parent_tooLong :
    write {} (.declared "A" (some tooLong)) =
      (.error (.nameTooLong 65537), ⟨[2, 0, 0, 0, 65], none⟩) := by
  have hname : Stub.Fits (some "A") := by decide +kernel
  rw [← length_tooLong]
  exact write_of_not_fits_parent [] hname rfl not_fits_tooLong

/-- A class that is refused for its parent has left its own name in the sink, and a class that is
written next is taken for its parent. -/
theorem refused_not_restored :
    let n : TypeNode := .declared "A" (some tooLong)
    let refused := n.write {}
    let next := write refused.2 (.declared "B" none)
    refused.1 = .error (.nameTooLong 65537) ∧ refused.2.bytes ≠ ({} : Sink).bytes ∧
      next.1 = .ok () ∧ read next.2.bytes = (.ok (.declared "A" (some "B")), frame none) := by
  intro n refused next
  have hrefused : refused = (.error (.nameTooLong 65537), ⟨[2, 0, 0, 0, 65], none⟩) :=
    write_parent_tooLong
  have hbytes : [2, 0, 0, 0, 65] ++ record (.declared "B" none) =
      record (.declared "A" (some "B")) ++ frame none := by decide +kernel
  have hnext : next = (.ok (), ⟨record (.declared "A" (some "B")) ++ frame none, none⟩) := by
    have hfits : Fits (.declared "B" none) := by decide +kernel
    show write refused.2 _ = _
    rw [hrefused, write_eq_write hfits, Sink.write_unbounded, hbytes]
  have hfits : Fits (.declared "A" (some "B")) := by decide +kernel
  rw [hnext, hrefused]
  exact ⟨rfl, by decide, rfl, read_record_append hfits _⟩

theorem write_refused_tooLong :
    let n : TypeNode := .declared "A" (some tooLong)
    let sink : Sink := ⟨[2, 0, 0, 0, 65], none⟩
    n.write {} = (.error (.nameTooLong 65537), sink) ∧
      readAll ((sink.writeAll [.node (.declared "B" none)]).left.bytes ++ [255]) [.name, .node] =
        ⟨[.name (some "A"), .node (.declared "B" none)], .ok (), [255]⟩ := by
  intro n sink
  refine ⟨write_parent_tooLong, ?_⟩
  obtain ⟨remnant, hcases, hnodes⟩ := write_refused n [] _ sink write_parent_tooLong
  rcases hcases with ⟨hname, -⟩ | ⟨-, -, -, -, -, -, rfl⟩
  · have hfits : Stub.Fits (some "A") := by decide +kernel
    exact absurd hfits hname
  · have hfits : Fits (.declared "B" none) := by decide +kernel
    obtain ⟨-, new, hnew, hread⟩ :=
      hnodes [.declared "B" none] (List.forall_mem_singleton.mpr hfits) [255]
    rw [List.nil_append] at hnew
    rw [← hnew] at hread
    exact hread

end TypeNode

end Lineage
