import Lineage.TypeNode.Stub

/-!
# Names and nodes in streams

What is written of a name is its frame: the header and the bytes of the text. A sink takes the two
as if they were one piece, so a frame is there as a whole or torn off at one place. Reading takes a
frame off the front of a stream and accepts nothing else; a torn frame is cut short, wherever the
tear is.

What is written of a node is its record, the frames of its two names. The kind of the node is not in
its record, so what comes back is the declared class of these names.
-/

namespace Lineage.Stub

open Text (Bytes utf8 ofUtf8?)

/-- May the name be written? -/
def Fits : Option String → Prop
  | none => True
  | some s => (utf8 s).length ≤ maxNameSize

instance : DecidablePred Fits
  | none => inferInstanceAs (Decidable True)
  | some s => inferInstanceAs (Decidable ((utf8 s).length ≤ maxNameSize))

/-- The bytes that stand for a name. -/
def frame : Option String → Bytes
  | none => header 0
  | some s => header ((utf8 s).length + 1) ++ utf8 s

namespace Sink

/-- Two pieces are written like one if the second is left out after a failure of the first. -/
theorem write_append (s : Sink) (as bs : Bytes) :
    s.write (as ++ bs) =
      match s.write as with
      | (.ok (), s) => s.write bs
      | (.error e, s) => (.error e, s) := by
  obtain ⟨bytes, _ | capacity⟩ := s
  · simp only [write, List.append_assoc]
  · by_cases has : as.length ≤ capacity - bytes.length
    · have hroom : capacity - (bytes ++ as).length = capacity - bytes.length - as.length := by
        rw [List.length_append]
        omega
      have hfits : (as ++ bs).length ≤ capacity - bytes.length ↔
          bs.length ≤ capacity - bytes.length - as.length := by
        rw [List.length_append]
        omega
      simp only [write, if_pos has, List.take_of_length_le has, hroom, hfits, List.take_append,
        List.append_assoc]
    · have hlong : ¬ (as ++ bs).length ≤ capacity - bytes.length := by
        rw [List.length_append]
        omega
      have htake : (as ++ bs).take (capacity - bytes.length) =
          as.take (capacity - bytes.length) :=
        List.take_append_of_le_length (by omega)
      simp only [write, if_neg has, if_neg hlong, htake]

theorem write_unbounded (bytes bs : Bytes) :
    write ⟨bytes, none⟩ bs = (.ok (), ⟨bytes ++ bs, none⟩) := rfl

theorem write_nil (s : Sink) : s.write [] = (.ok (), s) := by
  obtain ⟨bytes, _ | capacity⟩ := s <;> simp [write]

/-- A write adds all of its bytes, or fails and adds some of them. -/
theorem write_cases (s : Sink) (bs : Bytes) :
    (∃ t, s.write bs = (.ok (), t) ∧ t.bytes = s.bytes ++ bs) ∨
      ∃ t k, s.write bs = (.error .sinkFull, t) ∧ k < bs.length ∧
        t.bytes = s.bytes ++ bs.take k := by
  obtain ⟨bytes, _ | capacity⟩ := s
  · exact .inl ⟨_, rfl, rfl⟩
  · by_cases hroom : bs.length ≤ capacity - bytes.length
    · have hwrite : write ⟨bytes, some capacity⟩ bs = (.ok (), ⟨bytes ++ bs, some capacity⟩) := by
        simp only [write, if_pos hroom, List.take_of_length_le hroom]
      exact .inl ⟨_, hwrite, rfl⟩
    · have hwrite : write ⟨bytes, some capacity⟩ bs =
          (.error .sinkFull, ⟨bytes ++ bs.take (capacity - bytes.length), some capacity⟩) := by
        simp only [write, if_neg hroom]
      exact .inr ⟨_, _, hwrite, Nat.not_le.mp hroom, rfl⟩

theorem writeName_eq_write {name : Option String} (h : Fits name) (s : Sink) :
    s.writeName name = s.write (frame name) := by
  cases name with
  | none => rfl
  | some n =>
    have hle : ¬ maxNameSize < (utf8 n).length := Nat.not_lt.mpr h
    exact (if_neg hle).trans (s.write_append _ _).symm

theorem fits_of_writeName_ok {s t : Sink} {name : Option String}
    (h : s.writeName name = (.ok (), t)) : Fits name := by
  cases name with
  | none => trivial
  | some n =>
    by_cases hlong : maxNameSize < (utf8 n).length
    · simp only [writeName, if_pos hlong] at h
      cases h
    · exact Nat.not_lt.mp hlong

end Sink

theorem length_header (n : Nat) : (header n).length = 4 := rfl

theorem headerValue_lt (a b c d : UInt8) : headerValue a b c d < 4294967296 := by
  have ha := a.toNat_lt
  have hb := b.toNat_lt
  have hc := c.toNat_lt
  have hd := d.toNat_lt
  unfold headerValue
  omega

/-- Different bytes are different headers. -/
theorem header_headerValue (a b c d : UInt8) : header (headerValue a b c d) = [a, b, c, d] := by
  have ha := a.toNat_lt
  have hb := b.toNat_lt
  have hc := c.toNat_lt
  have hd := d.toNat_lt
  simp only [header, headerValue, List.cons.injEq, ← UInt8.toNat_inj, UInt8.toNat_ofNat', and_true]
  omega

theorem readName_header {n : Nat} (h : n < 4294967296) (bs : Bytes) :
    readName (header n ++ bs) = readBody n bs := by
  show readBody (headerValue _ _ _ _) bs = readBody n bs
  rw [headerValue_header h]

theorem readName_of_length_lt {bs : Bytes} (h : bs.length < 4) :
    readName bs = (.error .cutShort, []) := by
  match bs with
  | [] | [_] | [_, _] | [_, _, _] => rfl
  | _ :: _ :: _ :: _ :: rest => exact absurd h (Nat.not_lt.mpr (Nat.le_add_left 4 rest.length))

theorem exists_header {bs : Bytes} (h : 4 ≤ bs.length) :
    ∃ n rest, n < 4294967296 ∧ bs = header n ++ rest := by
  match bs with
  | a :: b :: c :: d :: rest =>
    refine ⟨headerValue a b c d, rest, headerValue_lt a b c d, ?_⟩
    rw [header_headerValue]
    rfl
  | [] | [_] | [_, _] | [_, _, _] => simp at h

/-! ## Reading -/

theorem take_eq_ok_iff {n : Nat} {bs front rest : Bytes} :
    take n bs = (.ok front, rest) ↔ front.length = n ∧ bs = front ++ rest := by
  constructor
  · intro h
    unfold take at h
    split at h
    · next hle =>
      cases h
      refine ⟨?_, (List.take_append_drop n bs).symm⟩
      rw [List.length_take, Nat.min_eq_left hle]
    · cases h
  · rintro ⟨rfl, rfl⟩
    have hle : front.length ≤ (front ++ rest).length := by
      rw [List.length_append]
      omega
    rw [take, if_pos hle, List.take_left, List.drop_left]

theorem take_of_length_lt {n : Nat} {bs : Bytes} (h : bs.length < n) :
    take n bs = (.error .cutShort, []) :=
  if_neg (Nat.not_le.mpr h)

/-- The bytes behind a header are taken off the stream before they are looked at. -/
theorem readBody_append {bs : Bytes} (h : bs.length ≤ maxNameSize) (rest : Bytes) :
    readBody (bs.length + 1) (bs ++ rest) =
      (match ofUtf8? bs with
        | some s => .ok (some s)
        | none => .error .invalidUtf8, rest) := by
  have hle : ¬ maxNameSize < bs.length := Nat.not_lt.mpr h
  have htake : take bs.length (bs ++ rest) = (.ok bs, rest) := take_eq_ok_iff.mpr ⟨rfl, rfl⟩
  simp only [readBody, Nat.add_one_ne_zero, if_false, Nat.add_sub_cancel, if_neg hle, htake]
  cases ofUtf8? bs <;> rfl

theorem readBody_utf8 {s : String} (h : Fits (some s)) (rest : Bytes) :
    readBody ((utf8 s).length + 1) (utf8 s ++ rest) = (.ok (some s), rest) := by
  rw [readBody_append h, Text.ofUtf8?_utf8]

theorem readBody_of_length_lt {n : Nat} {bs : Bytes} (hn : n ≤ maxNameSize) (h : bs.length < n) :
    readBody (n + 1) bs = (.error .cutShort, []) := by
  simp only [readBody, Nat.add_one_ne_zero, if_false, Nat.add_sub_cancel,
    if_neg (Nat.not_lt.mpr hn), take_of_length_lt h]

theorem eq_of_readBody {n : Nat} {bs rest : Bytes} {name : Option String}
    (h : readBody n bs = (.ok name, rest)) : Fits name ∧ header n ++ bs = frame name ++ rest := by
  unfold readBody at h
  split at h
  · next hn =>
    cases h
    subst hn
    exact ⟨trivial, rfl⟩
  · split at h
    · cases h
    · next hn hle =>
      rcases htake : take (n - 1) bs with ⟨_ | body, left⟩
      · simp only [htake] at h
        cases h
      · cases htext : ofUtf8? body with
        | none =>
          simp only [htake, htext] at h
          cases h
        | some s =>
          simp only [htake, htext] at h
          cases h
          obtain ⟨hlen, rfl⟩ := take_eq_ok_iff.mp htake
          obtain rfl := Text.ofUtf8?_eq_some_iff.mp htext
          have hsize : (utf8 s).length + 1 = n := by omega
          refine ⟨?_, ?_⟩
          · show (utf8 s).length ≤ maxNameSize
            omega
          · rw [frame, hsize, List.append_assoc]

/-- The streams from which a name is read are those that begin with its frame. -/
theorem readName_eq_ok_iff {bs rest : Bytes} {name : Option String} :
    readName bs = (.ok name, rest) ↔ Fits name ∧ bs = frame name ++ rest := by
  constructor
  · intro h
    rcases Nat.lt_or_ge bs.length 4 with hshort | hlong
    · rw [readName_of_length_lt hshort] at h
      cases h
    · obtain ⟨n, body, hn, rfl⟩ := exists_header hlong
      rw [readName_header hn] at h
      exact eq_of_readBody h
  · rintro ⟨hfits, rfl⟩
    cases name with
    | none => exact readName_header (by decide) rest
    | some s =>
      have hle : (utf8 s).length ≤ 65536 := hfits
      rw [frame, List.append_assoc, readName_header (by omega)]
      exact readBody_utf8 hfits rest

theorem readName_frame_append {name : Option String} (h : Fits name) (rest : Bytes) :
    readName (frame name ++ rest) = (.ok name, rest) :=
  readName_eq_ok_iff.mpr ⟨h, rfl⟩

/-- A torn frame is cut short, in its header or behind it. -/
theorem readName_take_frame {name : Option String} (h : Fits name) {k : Nat}
    (hk : k < (frame name).length) : readName ((frame name).take k) = (.error .cutShort, []) := by
  rcases Nat.lt_or_ge k 4 with hshort | hlong
  · apply readName_of_length_lt
    rw [List.length_take]
    omega
  · cases name with
    | none => exact absurd hk (Nat.not_lt.mpr hlong)
    | some s =>
      have hle : (utf8 s).length ≤ 65536 := h
      have hbody : k - 4 < (utf8 s).length := by
        rw [frame, List.length_append, length_header] at hk
        omega
      have htake : (frame (some s)).take k =
          header ((utf8 s).length + 1) ++ (utf8 s).take (k - 4) := by
        rw [frame, List.take_append, List.take_of_length_le hlong, length_header]
      rw [htake, readName_header (by omega)]
      apply readBody_of_length_lt h
      rw [List.length_take]
      omega

theorem readRequired_eq_ok_iff {part : Part} {bs rest : Bytes} {name : String} :
    readRequired part bs = (.ok name, rest) ↔ readName bs = (.ok (some name), rest) := by
  unfold readRequired
  rcases readName bs with ⟨_ | _ | other, left⟩ <;> simp

theorem readRequired_of_error {part : Part} {bs rest : Bytes} {e : Fault}
    (h : readName bs = (.error e, rest)) : readRequired part bs = (.error e, rest) := by
  unfold readRequired
  rw [h]

end Lineage.Stub

/-! ## Nodes -/

namespace Lineage

open Stub
open Text (Bytes)

namespace TypeNode

/-- May both names of the node be written? -/
def Fits (n : TypeNode) : Prop := Stub.Fits (some n.name) ∧ Stub.Fits n.superName

instance : DecidablePred Fits := fun n =>
  inferInstanceAs (Decidable (Stub.Fits (some n.name) ∧ Stub.Fits n.superName))

/-- The bytes that stand for a node. -/
def record (n : TypeNode) : Bytes := frame (some n.name) ++ frame n.superName

/-- The declared class with the names of the node. -/
def restored (n : TypeNode) : TypeNode := declared n.name n.superName

theorem restored_eq_iff {n : TypeNode} :
    n.restored = n ↔ ∃ name superName, n = declared name superName := by
  cases n with
  | declared name superName => exact ⟨fun _ => ⟨name, superName, rfl⟩, fun _ => rfl⟩
  | anonymous site => simp [restored]
  | global reference => simp [restored]

theorem write_eq_write {n : TypeNode} (h : n.Fits) (s : Sink) : n.write s = s.write n.record := by
  rw [record, Sink.write_append, ← Sink.writeName_eq_write h.1]
  unfold TypeNode.write
  rcases s.writeName (some n.name) with ⟨_ | _, t⟩
  · rfl
  · exact Sink.writeName_eq_write h.2 t

theorem fits_of_write_ok {n : TypeNode} {s t : Sink} (h : n.write s = (.ok (), t)) : n.Fits := by
  unfold TypeNode.write at h
  rcases hname : s.writeName (some n.name) with ⟨_ | _, u⟩
  · simp only [hname] at h
    cases h
  · simp only [hname] at h
    exact ⟨Sink.fits_of_writeName_ok hname, Sink.fits_of_writeName_ok h⟩

/-- The streams from which a node is read are those that begin with its record. -/
theorem read_eq_ok_iff {bs rest : Bytes} {n : TypeNode} :
    read bs = (.ok n, rest) ↔ n.restored = n ∧ n.Fits ∧ bs = n.record ++ rest := by
  constructor
  · intro h
    unfold read at h
    rcases hname : readRequired .name bs with ⟨_ | name, left⟩
    · simp only [hname] at h
      cases h
    · rcases hsuper : readName left with ⟨_ | superName, left'⟩
      · simp only [hname, hsuper] at h
        cases h
      · simp only [hname, hsuper] at h
        cases h
        obtain ⟨hfits, rfl⟩ := readName_eq_ok_iff.mp (readRequired_eq_ok_iff.mp hname)
        obtain ⟨hfits', rfl⟩ := readName_eq_ok_iff.mp hsuper
        exact ⟨rfl, ⟨hfits, hfits'⟩, (List.append_assoc _ _ _).symm⟩
  · rintro ⟨hn, hfits, rfl⟩
    have hname : readRequired .name (n.record ++ rest) =
        (.ok n.name, frame n.superName ++ rest) := by
      rw [record, List.append_assoc]
      exact readRequired_eq_ok_iff.mpr (readName_frame_append hfits.1 _)
    simp only [read, hname, readName_frame_append hfits.2]
    rw [← restored, hn]

theorem read_record_append {n : TypeNode} (h : n.Fits) (rest : Bytes) :
    read (n.record ++ rest) = (.ok n.restored, rest) :=
  read_eq_ok_iff.mpr ⟨rfl, h, rfl⟩

/-- A torn record is cut short, in its first name or behind it. -/
theorem read_take_record {n : TypeNode} (h : n.Fits) {k : Nat} (hk : k < n.record.length) :
    read (n.record.take k) = (.error .cutShort, []) := by
  rcases Nat.lt_or_ge k (frame (some n.name)).length with hshort | hlong
  · have hname : readName (n.record.take k) = (.error .cutShort, []) := by
      rw [record, List.take_append_of_le_length (Nat.le_of_lt hshort)]
      exact readName_take_frame h.1 hshort
    simp only [read, readRequired_of_error hname]
  · have hsuper : k - (frame (some n.name)).length < (frame n.superName).length := by
      rw [record, List.length_append] at hk
      omega
    have hname : readRequired .name (n.record.take k) =
        (.ok n.name, (frame n.superName).take (k - (frame (some n.name)).length)) := by
      rw [record, List.take_append, List.take_of_length_le hlong]
      exact readRequired_eq_ok_iff.mpr (readName_frame_append h.1 _)
    simp only [read, hname, readName_take_frame h.2 hsuper]

end TypeNode

namespace Stub

/-- To begin with some bytes and go on with `rest`, told by the number of these bytes. -/
theorem eq_append_iff_take {bs front rest : Bytes} {k : Nat} :
    bs = front ++ rest ∧ k + rest.length = bs.length ↔
      k ≤ bs.length ∧ bs.take k = front ∧ bs.drop k = rest := by
  constructor
  · rintro ⟨rfl, hk⟩
    have hfront : k = front.length := by
      rw [List.length_append] at hk
      omega
    subst hfront
    refine ⟨?_, List.take_left, List.drop_left⟩
    rw [List.length_append]
    omega
  · rintro ⟨hk, rfl, rfl⟩
    refine ⟨(List.take_append_drop k bs).symm, ?_⟩
    rw [List.length_drop]
    omega

theorem written_eq_iff {bs front : Bytes} :
    ((.ok (), ⟨front, none⟩) : Except Fault Unit × Sink) = (.ok (), ⟨bs, none⟩) ↔ bs = front := by
  rw [Prod.mk.injEq, Sink.mk.injEq, eq_comm (a := front)]
  simp

/-- A name or a node is read from a stream just if it may be written and the stream begins with
what is written of it; this is then used up, and nothing else. So each has one written form, and
nothing but written forms is accepted. -/
theorem reads_iff_written (bs rest : Bytes) (k : Nat) :
    (∀ name : Option String,
      readName bs = (.ok name, rest) ∧ k + rest.length = bs.length ↔
        Fits name ∧ k ≤ bs.length ∧
          ({} : Sink).writeName name = (.ok (), { bytes := bs.take k }) ∧ bs.drop k = rest) ∧
      ∀ n : TypeNode,
        TypeNode.read bs = (.ok n, rest) ∧ k + rest.length = bs.length ↔
          (∃ name superName, n = .declared name superName) ∧ Fits (some n.name) ∧
            Fits n.superName ∧ k ≤ bs.length ∧
            n.write {} = (.ok (), { bytes := bs.take k }) ∧ bs.drop k = rest := by
  refine ⟨fun name => ?_, fun n => ?_⟩
  · rw [readName_eq_ok_iff, and_assoc, eq_append_iff_take]
    refine and_congr_right fun hfits => ?_
    rw [Sink.writeName_eq_write hfits, Sink.write_unbounded, List.nil_append, written_eq_iff]
  · rw [TypeNode.read_eq_ok_iff, TypeNode.restored_eq_iff, TypeNode.Fits, and_assoc, and_assoc,
      and_assoc, eq_append_iff_take]
    refine and_congr_right fun _ => and_congr_right fun hname => and_congr_right fun hsuper => ?_
    rw [TypeNode.write_eq_write ⟨hname, hsuper⟩, Sink.write_unbounded, List.nil_append,
      written_eq_iff]

/-- A longer form of a character is not the written one. -/
example : readName [3, 0, 0, 0, 0xC1, 0x81] = (.error .invalidUtf8, []) := rfl

end Stub

end Lineage
