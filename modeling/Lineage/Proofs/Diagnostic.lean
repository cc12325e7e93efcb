import Lineage.Index
import Lineage.Proofs.Text.Template
import Lineage.Session

/-!
# What the message of a diagnostic says

The message names the root of the walk, and what the template has behind it is looked for in that
name too. So the name is told as it is unless it holds the placeholder of the other argument.
-/

namespace Lineage

namespace Diagnostic

open Text

section
variable {message root arg : String} (before between behind : List Char)
  (hmessage : message.toList = before ++ ((placeholder 0).toList ++
    ('\'' :: between ++ ((placeholder 1).toList ++ behind))))
  (hbefore : '\x7b' ∉ before) (hbetween : '\x7b' ∉ '\'' :: between) (hbehind : '\x7b' ∉ behind)
include hmessage hbefore hbetween hbehind

/-- The root is named in quotes. Its name is all that is searched for the placeholder of the other
argument. -/
theorem toList_fill_pair :
    (fill message [root, arg]).toList =
      before ++ (replaceList (placeholder 1).toList arg.toList 0 root.toList ++
        ('\'' :: between ++ (arg.toList ++ behind))) := by
  have hfirst : replaceList (placeholder 0).toList root.toList 0 message.toList =
      before ++ (root.toList ++ '\'' :: (between ++ ((placeholder 1).toList ++ behind))) := by
    rw [hmessage, replaceList_placeholder_of_no_brace hbefore,
      replaceList_append_of_pos (placeholder_ne_nil 0),
      replaceList_placeholder_of_no_brace hbetween, replaceList_placeholder_append Nat.zero_ne_one,
      replaceList_of_absent (placeholder_absent hbehind), List.cons_append]
  have hquote : '\'' ∉ (placeholder 1).toList := by decide
  rw [fill, fillFrom, fillFrom, fillFrom, replaceAll, replaceAll, String.toList_ofList,
    String.toList_ofList, hfirst, replaceList_placeholder_of_no_brace hbefore,
    replaceList_append_cons (placeholder_ne_nil 1) hquote,
    replaceList_placeholder_of_no_brace (not_or.mp (mt List.mem_cons.mpr hbetween)).2,
    replaceList_append_of_pos (placeholder_ne_nil 1),
    replaceList_of_absent (placeholder_absent hbehind), List.cons_append]

theorem fill_pair_eq_iff {text : String}
    (htext : text.toList =
      before ++ (root.toList ++ ('\'' :: between ++ (arg.toList ++ behind)))) :
    fill message [root, arg] = text ↔
      ((placeholder 1).toList <:+: root.toList → arg = placeholder 1) := by
  rw [← String.toList_inj,
    toList_fill_pair before between behind hmessage hbefore hbetween hbehind, htext,
    List.append_right_inj, List.append_left_inj, replaceList_eq_self_iff (placeholder_ne_nil 1),
    String.toList_inj]

end

theorem cyclic_message_eq_iff (root reached : String) :
    (cyclic root reached).message =
        "Super chain of '" ++ root ++ "' loops back to '" ++ reached ++ "'." ↔
      ((placeholder 1).toList <:+: root.toList → reached = placeholder 1) :=
  fill_pair_eq_iff "Super chain of '".toList " loops back to '".toList "'.".toList rfl
    (by decide) (by decide) (by decide) (by simp)

/-- A limit is told in digits and so is no placeholder. -/
theorem tooDeep_message_eq_iff (root : String) (limit : Nat) :
    (tooDeep root limit).message =
        "Super chain of '" ++ root ++ "' exceeds the maximum depth of " ++ toString limit ++
          " levels." ↔
      ¬ (placeholder 1).toList <:+: root.toList := by
  have hlimit : toString limit ≠ placeholder 1 := by
    intro h
    have hdigits : (toString limit).toList = Nat.toDigits 10 limit := by simp
    have hbrace : '\x7b' ∈ Nat.toDigits 10 limit := by
      rw [← hdigits, h, toList_placeholder]
      exact List.mem_cons_self
    exact Decimal.not_mem_digits (by decide) limit hbrace
  rw [tooDeep, fill_pair_eq_iff "Super chain of '".toList " exceeds the maximum depth of ".toList
    " levels.".toList rfl (by decide) (by decide) (by decide) (by simp)]
  exact ⟨fun h hin => hlimit (h hin), fun h hin => absurd hin h⟩

/-- A message is filled as by one pass if no argument but the last can be a part of a placeholder.
The messages of a walk tell the two arguments as they are unless the name of the root holds the
placeholder of the other one. -/
theorem messages_tell_arguments (message : String) (args : List String) (root reached : String)
    (limit : Nat) :
    ((∀ arg ∈ args.dropLast, Inert arg) → fill message args = fillOnce message args) ∧
    ((cyclic root reached).message =
        "Super chain of '" ++ root ++ "' loops back to '" ++ reached ++ "'." ↔
      ((placeholder 1).toList <:+: root.toList → reached = placeholder 1)) ∧
    ((tooDeep root limit).message =
        "Super chain of '" ++ root ++ "' exceeds the maximum depth of " ++ toString limit ++
          " levels." ↔
      ¬ (placeholder 1).toList <:+: root.toList) :=
  ⟨fun h => fill_eq_fillOnce h message, cyclic_message_eq_iff root reached,
    tooDeep_message_eq_iff root limit⟩

/-- What the last argument brings in is not filled, although it is a placeholder. -/
theorem last_argument_kept :
    fill "\x7b1\x7d of \x7b0\x7d" ["Dog", "\x7b0\x7d"] = "\x7b0\x7d of Dog" := by
  obtain ⟨hfill, -⟩ :=
    messages_tell_arguments "\x7b1\x7d of \x7b0\x7d" ["Dog", "\x7b0\x7d"] "Dog" "Dog" 0
  rw [hfill]
  · decide
  · intro arg harg
    obtain rfl := List.mem_singleton.mp harg
    exact .of_no_brace rfl (by decide)

/-- The name of this root is the placeholder of the class that the walk comes back to, so the
message of the walk names that class twice. -/
theorem marked_root_misnamed :
    let ix := (Index.empty.addClass { name := "\x7b1\x7d", superName := some "A" }).addClass
      { name := "A", superName := some "A" }
    let s := Session.start ix.catalog ⟨0, .project⟩ none
    let (names, t) := s.superChain (.node (.declared "\x7b1\x7d" (some "A")))
    names = ["\x7b1\x7d", "A"] ∧
      t.diagnostics.map Diagnostic.message = ["Super chain of 'A' loops back to 'A'."] ∧
      fillOnce cyclicTemplate ["\x7b1\x7d", "A"] =
        "Super chain of '\x7b1\x7d' loops back to 'A'." := by
  decide +kernel

end Diagnostic

end Lineage
