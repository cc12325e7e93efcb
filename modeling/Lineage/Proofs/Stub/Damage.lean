import Mathlib.Data.List.Forall2
import Lineage.Proofs.Stub

/-!
# Damaged frames

The bytes behind a header may be no text, and a name may be missing where one has to be there. In
both cases the reader has the whole frame behind it when it finds out: the header alone says where
the next frame begins. So a reader who goes on after every failure stays in step, and what it is
told about a frame does not depend on the frames around it.
-/

namespace Lineage.Stub

open Text (Bytes utf8 ofUtf8?)

/-- What stands in a stream for a name, whether or not anybody would write it. -/
inductive Frame where
  /-- The mark of an absent name. -/
  | absent
  /-- Any bytes behind a header that has their number. -/
  | body (bs : Bytes)
  deriving DecidableEq

namespace Frame

def bytes : Frame → Bytes
  | absent => header 0
  | body bs => header (bs.length + 1) ++ bs

/-- Are the bytes as few as those of a name? -/
def Fits : Frame → Prop
  | absent => True
  | body bs => bs.length ≤ maxNameSize

instance : DecidablePred Fits
  | absent => inferInstanceAs (Decidable True)
  | body bs => inferInstanceAs (Decidable (bs.length ≤ maxNameSize))

end Frame

/-- How a reader asks for the next name. -/
inductive Ask where
  | optional
  | required (part : Part)
  deriving DecidableEq

namespace Ask

def read : Ask → Bytes → Except Fault (Option String) × Bytes
  | optional, bs => readName bs
  | required part, bs => (readRequired part bs).map (·.map some) id

/-- What a reader has to be told about a frame. -/
inductive Gets : Ask → Frame → Except Fault (Option String) → Prop where
  | text (ask : Ask) (s : String) : Gets ask (.body (utf8 s)) (.ok (some s))
  | damaged (ask : Ask) {bs : Bytes} (h : ∀ s, bs ≠ utf8 s) :
      Gets ask (.body bs) (.error .invalidUtf8)
  | absent : Gets .optional .absent (.ok none)
  | missing (part : Part) : Gets (.required part) .absent (.error (.missing part))

end Ask

theorem readName_of_not_utf8 {bs : Bytes} (hle : bs.length ≤ maxNameSize) (h : ∀ s, bs ≠ utf8 s)
    (rest : Bytes) :
    readName ((Frame.body bs).bytes ++ rest) = (.error .invalidUtf8, rest) := by
  have hsize : bs.length ≤ 65536 := hle
  have htext : ofUtf8? bs = none :=
    Option.eq_none_iff_forall_ne_some.mpr fun s hs => h s (Text.ofUtf8?_eq_some_iff.mp hs)
  rw [Frame.bytes, List.append_assoc, readName_header (by omega), readBody_append hle, htext]

theorem readRequired_of_absent {part : Part} {bs rest : Bytes}
    (h : readName bs = (.ok none, rest)) :
    readRequired part bs = (.error (.missing part), rest) := by
  unfold readRequired
  rw [h]

section
variable {bs rest : Bytes}

theorem Ask.read_of_text (ask : Ask) {s : String} (h : readName bs = (.ok (some s), rest)) :
    ask.read bs = (.ok (some s), rest) := by
  cases ask with
  | optional => exact h
  | required part =>
    rw [read, readRequired_eq_ok_iff.mpr h]
    rfl

theorem Ask.read_of_error (ask : Ask) {e : Fault} (h : readName bs = (.error e, rest)) :
    ask.read bs = (.error e, rest) := by
  cases ask with
  | optional => exact h
  | required part =>
    rw [read, readRequired_of_error h]
    rfl

end

/-- Whatever comes of a read, it takes its frame off the stream and nothing else. -/
theorem Ask.exists_gets_read (ask : Ask) {f : Frame} (h : f.Fits) (rest : Bytes) :
    ∃ outcome, ask.read (f.bytes ++ rest) = (outcome, rest) ∧ ask.Gets f outcome := by
  cases f with
  | absent =>
    have hfits : Stub.Fits none := trivial
    have hread : readName (Frame.absent.bytes ++ rest) = (.ok none, rest) :=
      readName_frame_append hfits rest
    cases ask with
    | optional => exact ⟨_, hread, .absent⟩
    | required part =>
      refine ⟨_, ?_, .missing part⟩
      rw [read, readRequired_of_absent hread]
      rfl
  | body bs =>
    by_cases htext : ∃ s, bs = utf8 s
    · obtain ⟨s, rfl⟩ := htext
      have hfits : Stub.Fits (some s) := h
      exact ⟨_, ask.read_of_text (readName_frame_append hfits rest), .text ask s⟩
    · have hdamaged : ∀ s, bs ≠ utf8 s := fun s hs => htext ⟨s, hs⟩
      exact ⟨_, ask.read_of_error (readName_of_not_utf8 h hdamaged rest), .damaged ask hdamaged⟩

/-! ## Many frames -/

/-- Reads as often as there is something to ask for, and goes on after a failure. -/
def readEach (bs : Bytes) : List Ask → List (Except Fault (Option String)) × Bytes
  | [] => ([], bs)
  | ask :: asks =>
    let (outcome, rest) := ask.read bs
    let (outcomes, rest) := readEach rest asks
    (outcome :: outcomes, rest)

/-- However many of the frames are damaged or missing, each read is told what its own frame says,
and behind the last of them the stream is where the frames end. -/
theorem readEach_frames (frames : List (Frame × Ask)) (h : ∀ f ∈ frames, f.1.Fits)
    (rest : Bytes) :
    ∃ outcomes,
      readEach (frames.flatMap (·.1.bytes) ++ rest) (frames.map (·.2)) = (outcomes, rest) ∧
        List.Forall₂ (fun f outcome => f.2.Gets f.1 outcome) frames outcomes := by
  induction frames with
  | nil => exact ⟨[], rfl, .nil⟩
  | cons f frames ih =>
    obtain ⟨hf, hframes⟩ := List.forall_mem_cons.mp h
    obtain ⟨outcomes, hread, hgets⟩ := ih hframes
    obtain ⟨outcome, hfirst, hget⟩ :=
      f.2.exists_gets_read hf (frames.flatMap (·.1.bytes) ++ rest)
    refine ⟨outcome :: outcomes, ?_, .cons hget hgets⟩
    rw [List.flatMap_cons, List.append_assoc, List.map_cons, readEach, hfirst]
    simp only [hread]

/-- Bytes that are no text, a missing name and an empty one, with names between them. -/
theorem readEach_frames_mixed :
    let frames : List (Frame × Ask) := [(.body [255, 254], .required .name),
      (.body [195, 169], .optional), (.absent, .required .name), (.absent, .optional),
      (.body [], .required .parent)]
    let outcomes : List (Except Fault (Option String)) := [.error .invalidUtf8, .ok (some "é"),
      .error (.missing .name), .ok none, .ok (some "")]
    (∀ f ∈ frames, f.1.Fits) ∧
      readEach (frames.flatMap (·.1.bytes) ++ [2, 0]) (frames.map (·.2)) = (outcomes, [2, 0]) ∧
      List.Forall₂ (fun f outcome => f.2.Gets f.1 outcome) frames outcomes := by
  intro frames outcomes
  have hfits : ∀ f ∈ frames, f.1.Fits := by decide
  have hread : readEach (frames.flatMap (·.1.bytes) ++ [2, 0]) (frames.map (·.2)) =
      (outcomes, [2, 0]) := by rfl
  obtain ⟨told, hall, hgets⟩ := readEach_frames frames hfits [2, 0]
  obtain rfl : outcomes = told := congrArg Prod.fst (hread.symm.trans hall)
  exact ⟨hfits, hread, hgets⟩

end Lineage.Stub
