import Mathlib.Data.List.Basic
import Mathlib.Data.List.Infix
import Mathlib.Data.String.Basic
import Mathlib.Data.UInt
import Lineage.Text

/-!
# Bytes and occurrences

Texts are ordered by their characters, and bytes are ordered in the same way: a character with a
greater code has a greater first byte, or else agrees in all bytes up to one that is greater. So
where two characters differ their bytes differ as well, and the bytes of one text begin those of
another only if its characters do.

Replacing goes from occurrence to occurrence: `occurrence_induction` is the induction that follows
it. A text comes out as it was if and only if what is replaced does not occur in it, or is replaced
by itself.
-/

namespace Lineage.Text

theorem toNat_val_lt (c : Char) : c.val.toNat < 0x110000 := by
  rcases c.valid with h | ⟨-, h⟩
  · exact Nat.lt_trans h (by decide)
  · exact h

/-- Two characters are told apart before either of them ends, whatever follows. -/
theorem utf8EncodeChar_append_lt {c d : Char} (h : c < d) (r r' : Bytes) :
    String.utf8EncodeChar c ++ r < String.utf8EncodeChar d ++ r' := by
  have hlt : c.val.toNat < d.val.toNat := h
  have hle := toNat_val_lt d
  simp only [String.utf8EncodeChar]
  generalize c.val.toNat = v at hlt
  generalize d.val.toNat = w at hlt hle
  -- One case for each pair of lengths; then the first bytes that differ decide.
  split_ifs <;>
    simp (disch := omega) only [List.cons_append, List.nil_append, List.cons_lt_cons_iff,
      UInt8.lt_iff_toNat_lt, ← UInt8.toNat_inj, UInt8.toNat_ofNat', Nat.mod_eq_of_lt,
      Nat.add_lt_add_iff_right] <;>
    omega

theorem utf8_eq_flatMap (s : String) : utf8 s = s.toList.flatMap String.utf8EncodeChar := by
  rw [utf8, ← String.utf8Encode_toList, List.utf8Encode, List.data_toByteArray]

theorem flatMap_utf8EncodeChar_lt {cs ds : List Char} (h : cs < ds) :
    cs.flatMap String.utf8EncodeChar < ds.flatMap String.utf8EncodeChar := by
  induction cs generalizing ds with
  | nil =>
    cases ds with
    | nil => exact absurd h (List.lt_irrefl _)
    | cons d ds =>
      have hpos : 0 < (String.utf8EncodeChar d).length := by
        rw [String.length_utf8EncodeChar]
        exact d.utf8Size_pos
      obtain ⟨b, bs, hd⟩ := List.exists_cons_of_length_pos hpos
      rw [List.flatMap_cons, hd]
      exact List.nil_lt_cons _ _
  | cons c cs ih =>
    cases ds with
    | nil => exact absurd h (List.not_lt_nil _)
    | cons d ds =>
      rw [List.flatMap_cons, List.flatMap_cons]
      rcases List.cons_lt_cons_iff.mp h with hlt | ⟨rfl, hlt⟩
      · exact utf8EncodeChar_append_lt hlt _ _
      · exact List.append_left_lt (ih hlt)

theorem utf8_lt_iff {s t : String} : utf8 s < utf8 t ↔ s < t := by
  have hmono : ∀ {s t : String}, s < t → utf8 s < utf8 t := by
    intro s t h
    rw [utf8_eq_flatMap, utf8_eq_flatMap]
    exact flatMap_utf8EncodeChar_lt h
  refine ⟨fun h => ?_, hmono⟩
  rcases lt_trichotomy s t with hst | rfl | hst
  · exact hst
  · exact absurd h (List.lt_irrefl _)
  · exact absurd h (List.lt_asymm (hmono hst))

variable {old new cs rest : List Char}

@[simp]
theorem replaceList_nil : replaceList old new 0 [] = [] := rfl

theorem replaceList_skip (old new : List Char) (k : Nat) (cs : List Char) :
    replaceList old new k cs = replaceList old new 0 (cs.drop k) := by
  induction cs generalizing k with
  | nil => simp [replaceList]
  | cons c cs ih =>
    cases k with
    | zero => rfl
    | succ k => rw [List.drop_succ_cons, ← ih, replaceList]

theorem replaceList_append_of_pos (hold : old ≠ []) :
    replaceList old new 0 (old ++ rest) = new ++ replaceList old new 0 rest := by
  obtain ⟨c, tail, rfl⟩ := List.exists_cons_of_ne_nil hold
  have hprefix : (c :: tail).isPrefixOf (c :: (tail ++ rest)) = true :=
    List.isPrefixOf_iff_prefix.mpr (List.prefix_append (c :: tail) rest)
  rw [List.cons_append, replaceList, if_pos hprefix, replaceList_skip, List.length_cons,
    Nat.add_sub_cancel, List.drop_left]

theorem replaceList_cons_of_neg {c : Char} (h : ¬ old <+: c :: cs) :
    replaceList old new 0 (c :: cs) = c :: replaceList old new 0 cs := by
  rw [replaceList, if_neg (mt List.isPrefixOf_iff_prefix.mp h)]

/-- A text is gone through by the occurrences of `old` and by the characters where none begins. -/
theorem occurrence_induction {motive : List Char → Prop} (hold : old ≠ []) (nil : motive [])
    (occurrence : ∀ rest, motive rest → motive (old ++ rest))
    (plain : ∀ c cs, ¬ old <+: c :: cs → motive cs → motive (c :: cs)) : ∀ cs, motive cs
  | [] => nil
  | c :: cs => by
    by_cases h : old <+: c :: cs
    · obtain ⟨rest, hrest⟩ := h
      have hshorter : rest.length < (c :: cs).length := by
        rw [← hrest, List.length_append]
        exact Nat.lt_add_of_pos_left (List.length_pos_of_ne_nil hold)
      rw [← hrest]
      exact occurrence rest (occurrence_induction hold nil occurrence plain rest)
    · exact plain c cs h (occurrence_induction hold nil occurrence plain cs)
  termination_by cs => cs.length
  decreasing_by
    · exact hshorter
    · exact Nat.lt_succ_self cs.length

/-- Text without the character that `old` begins with is passed over. -/
theorem replaceList_append_of_not_mem {c : Char} (hc : c ∉ cs) :
    replaceList (c :: old) new 0 (cs ++ rest) = cs ++ replaceList (c :: old) new 0 rest := by
  induction cs with
  | nil => rfl
  | cons d cs ih =>
    obtain ⟨hd, hcs⟩ := not_or.mp (mt List.mem_cons.mpr hc)
    rw [List.cons_append, replaceList_cons_of_neg, ih hcs, List.cons_append]
    exact fun h => hd (List.cons_prefix_cons.mp h).1

/-- No occurrence goes over a character that is not in `old`. -/
theorem prefix_append_cons_iff {c : Char} (hc : c ∉ old) :
    old <+: cs ++ c :: rest ↔ old <+: cs := by
  refine ⟨fun h => ?_, fun h => h.trans (List.prefix_append _ _)⟩
  rcases List.prefix_or_prefix_of_prefix h (List.prefix_append cs (c :: rest)) with h' | ⟨more, rfl⟩
  · exact h'
  · cases more with
    | nil => rw [List.append_nil]
    | cons d more =>
      have hd : d = c := (List.cons_prefix_cons.mp ((List.prefix_append_right_inj cs).mp h)).1
      exact absurd (List.mem_append_right cs (hd ▸ List.mem_cons_self)) hc

/-- What stands before a character that is not in `old` is replaced by itself, and so is what
stands behind it. -/
theorem replaceList_append_cons {c : Char} (hold : old ≠ []) (hc : c ∉ old) :
    replaceList old new 0 (cs ++ c :: rest) =
      replaceList old new 0 cs ++ c :: replaceList old new 0 rest := by
  induction cs using occurrence_induction hold with
  | nil =>
    refine replaceList_cons_of_neg fun h => hold ?_
    exact List.prefix_nil.mp ((prefix_append_cons_iff hc).mp h)
  | occurrence cs ih =>
    rw [List.append_assoc, replaceList_append_of_pos hold, ih, replaceList_append_of_pos hold,
      List.append_assoc]
  | plain d cs hd ih =>
    have hd' : ¬ old <+: d :: (cs ++ c :: rest) :=
      fun h => hd ((prefix_append_cons_iff hc).mp h)
    rw [List.cons_append, replaceList_cons_of_neg hd', ih, replaceList_cons_of_neg hd,
      List.cons_append]

theorem replaceList_self (hold : old ≠ []) (cs : List Char) : replaceList old old 0 cs = cs := by
  induction cs using occurrence_induction hold with
  | nil => rfl
  | occurrence rest ih => rw [replaceList_append_of_pos hold, ih]
  | plain c cs h ih => rw [replaceList_cons_of_neg h, ih]

theorem replaceList_of_absent (h : ¬ old <:+: cs) : replaceList old new 0 cs = cs := by
  induction cs with
  | nil => rfl
  | cons c cs ih =>
    rw [List.infix_cons_iff, not_or] at h
    rw [replaceList_cons_of_neg h.1, ih h.2]

/-- The length tells how often `old` has been replaced. -/
theorem length_replaceList (hold : old ≠ []) (new cs : List Char) :
    ∃ k, (replaceList old new 0 cs).length + k * old.length = cs.length + k * new.length := by
  induction cs using occurrence_induction hold with
  | nil => exact ⟨0, by simp⟩
  | occurrence rest ih =>
    obtain ⟨k, hk⟩ := ih
    refine ⟨k + 1, ?_⟩
    rw [replaceList_append_of_pos hold, List.length_append, List.length_append, Nat.succ_mul,
      Nat.succ_mul]
    omega
  | plain c cs h ih =>
    obtain ⟨k, hk⟩ := ih
    refine ⟨k, ?_⟩
    rw [replaceList_cons_of_neg h, List.length_cons, List.length_cons]
    omega

theorem replaceList_eq_self_iff (hold : old ≠ []) :
    replaceList old new 0 cs = cs ↔ (old <:+: cs → new = old) := by
  refine ⟨fun h hin => ?_, fun h => ?_⟩
  · induction cs using occurrence_induction hold with
    | nil => exact absurd (List.infix_nil.mp hin) hold
    | occurrence rest _ =>
      rw [replaceList_append_of_pos hold] at h
      refine (List.append_inj h ?_).1
      -- The lengths agree, as the occurrence in front is replaced once more than the rest says.
      obtain ⟨k, hk⟩ := length_replaceList hold new rest
      have hlength := congrArg List.length h
      rw [List.length_append, List.length_append] at hlength
      have : (k + 1) * new.length = (k + 1) * old.length := by
        rw [Nat.succ_mul, Nat.succ_mul]
        omega
      exact Nat.eq_of_mul_eq_mul_left k.succ_pos this
    | plain c cs hc ih =>
      rw [replaceList_cons_of_neg hc] at h
      exact ih (List.cons_injective h) ((List.infix_cons_iff.mp hin).resolve_left hc)
  · by_cases hin : old <:+: cs
    · rw [h hin, replaceList_self hold]
    · exact replaceList_of_absent hin

end Lineage.Text
