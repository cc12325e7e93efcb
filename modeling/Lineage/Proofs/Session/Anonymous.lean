import Lineage.Proofs.Basic
import Lineage.Proofs.Session.Locality
import Lineage.Proofs.Session.Member

/-!
# Tables of local bindings

The class name of a table is its site written without escapes, and a file may be called anything,
even like another site. The site is still known from the name if this is taken apart from its end:
the identifier stands behind the last closing parenthesis and the offset behind the last opening one
before it. So tables of two sites have different names, and since such a table has no parent, what
an index holds under the name of the one never shows at the other.
-/

namespace Lineage

open Session

section
variable {α : Type} {c : α} {before before' after after' more : List α}

theorem eq_nil_of_cons_eq_append_cons (h : c ∉ after) (heq : c :: after = more ++ c :: after') :
    more = [] := by
  cases more with
  | nil => rfl
  | cons d more =>
    have hmem : c ∈ after := by
      rw [(List.cons.inj heq).2]
      exact List.mem_append_right more List.mem_cons_self
    exact absurd hmem h

/-- Two texts are the same if they are the same before and behind the last of a character. -/
theorem append_cons_eq_append_cons_iff (h : c ∉ after) (h' : c ∉ after') :
    before ++ c :: after = before' ++ c :: after' ↔ before = before' ∧ after = after' := by
  constructor
  · intro heq
    rcases List.append_eq_append_iff.mp heq with ⟨more, rfl, hafter⟩ | ⟨more, rfl, hafter⟩
    · obtain rfl := eq_nil_of_cons_eq_append_cons h hafter
      exact ⟨(List.append_nil before).symm, (List.cons.inj hafter).2⟩
    · obtain rfl := eq_nil_of_cons_eq_append_cons h' hafter
      exact ⟨List.append_nil before', (List.cons.inj hafter).2.symm⟩
  · rintro ⟨rfl, rfl⟩
    rfl

end

namespace DeclSite

theorem toList_className (site : DeclSite) :
    site.className.toList =
      ((site.file.toList ++ ['@']) ++ '(' :: Nat.toDigits 10 site.offset) ++
        ')' :: site.name.toList := by
  simp [className, Nat.toString_eq_repr]

theorem className_eq_iff {a b : DeclSite} (ha : ')' ∉ a.name.toList) (hb : ')' ∉ b.name.toList) :
    a.className = b.className ↔ a = b := by
  constructor
  · intro h
    have hlist : a.className.toList = b.className.toList := by rw [h]
    have hdigits (n : Nat) : '(' ∉ Nat.toDigits 10 n := Decimal.not_mem_digits (by decide) n
    rw [toList_className, toList_className, append_cons_eq_append_cons_iff ha hb,
      append_cons_eq_append_cons_iff (hdigits _) (hdigits _)] at hlist
    obtain ⟨⟨hfile, hoffset⟩, hname⟩ := hlist
    obtain ⟨file, offset, name⟩ := a
    obtain ⟨file', offset', name'⟩ := b
    rw [DeclSite.mk.injEq]
    exact ⟨String.toList_inj.mp (List.append_cancel_right hfile),
      Decimal.toDigits_injective hoffset, String.toList_inj.mp hname⟩
  · rintro rfl
    rfl

/-- An identifier with a parenthesis could be taken for the end of another site. -/
example : className ⟨"m.lua", 1, "x@(2)y"⟩ = className ⟨"m.lua@(1)x", 2, "y"⟩ := by decide +kernel

end DeclSite

/-! ## Walks from a table -/

namespace Session

section
variable {c : Catalog} {x : Context} {limit : Option UInt32} {s : Session} {root : Root}
  (hroot : root.superName = none)
include hroot

/-- A type that names no parent is alone in its chain. -/
theorem Serves.superChain_of_no_parent (hs : s.Serves c x limit) :
    (s.superChain root).1 = [root.name] := by
  have hparent : c.parent? x.scope root = none := by
    rw [Catalog.parent?, hroot]
    rfl
  have h : Ascends c x.scope (levelBound limit) (fun _ => (none : Option Unit)) root.name [] root
      ⟨[⟨root.name, 0⟩], none⟩ { asked := root.superName.toList } :=
    .top List.not_mem_nil (levelBound_pos limit) rfl hparent
  exact (answers_superChain h s hs).1

theorem footprint_of_no_parent : footprint c x limit root = [root.name] := by
  rw [footprint, (serves_start c x limit).superChain_of_no_parent hroot]
  show root.name :: (((some root).bind Root.superName).toList) = [root.name]
  rw [Option.bind_some, hroot]
  rfl

end

end Session

/-- Tables of two sites have one name exactly if the sites are the same. If they are not, what is
found from the one is never declared on the other, and declarations on the other change nothing that
is asked of the one, whatever has been asked before. -/
theorem TypeNode.anonymous_apart {a b : DeclSite} (ha : ')' ∉ a.name.toList)
    (hb : ')' ∉ b.name.toList) :
    ((anonymous a).name = (anonymous b).name ↔ a = b) ∧
    (a ≠ b → ∀ (ix : Index) (x : Context) (limit : Option UInt32) (ops : List Operation),
      let s := (start ix.catalog x limit).performAll ops
      let root : Root := .node (.anonymous b)
      (∀ name f, (s.findField root name).1 = some f → f.className ≠ (anonymous a).name) ∧
      ∀ (ds : List Declaration) (op : Operation), (∀ d ∈ ds, d.className = (anonymous a).name) →
        op.root? = some root →
        let t := (start (ds.foldl Index.add ix).catalog x limit).performAll ops
        (t.perform op).1 = (s.perform op).1) := by
  refine ⟨DeclSite.className_eq_iff ha hb, fun hne ix x limit ops => ?_⟩
  intro s root
  have hs : s.Serves ix.catalog x limit := (serves_start _ _ _).performAll ops
  have hname : (anonymous a).name ≠ root.name := fun h =>
    hne ((DeclSite.className_eq_iff ha hb).mp h)
  have hroot : root.superName = none := rfl
  refine ⟨fun name f hf => ?_, fun ds op hds hop => ?_⟩
  · rw [hs.findField_eq_findSome?, hs.superChain_of_no_parent hroot, List.findSome?_singleton] at hf
    rw [className_of_find?_fields hf]
    exact hname.symm
  · intro t
    have ht : t.Serves (ds.foldl Index.add ix).catalog x limit :=
      (serves_start _ _ _).performAll ops
    have hag : ∀ n ∈ footprint ix.catalog x limit root,
        ix.catalog.AgreesAt x.scope (ds.foldl Index.add ix).catalog n := by
      intro n hn
      rw [footprint_of_no_parent hroot, List.mem_singleton] at hn
      have hother : ∀ d ∈ ds, d.className ≠ n := by
        intro d hd
        rw [hds d hd, hn]
        exact hname
      exact Index.agreesAt_of_entry (Index.entry_foldl_add ix hother) x.scope
    obtain ⟨answer, e, h, h'⟩ := exists_answers_alike hag hop
    exact (h' t ht).1.trans (h s hs).1.symm

/-- A file that is called like a site in another file. -/
theorem TypeNode.anonymous_apart_nested :
    let a : DeclSite := ⟨"m.lua", 12, "x"⟩
    let b : DeclSite := ⟨"m.lua@(12)x", 12, "x"⟩
    let f : FieldDef := { name := "size", className := (anonymous a).name }
    let s := start Index.empty.catalog ⟨0, .project⟩ none
    let t := start (Index.empty.addField f).catalog ⟨0, .project⟩ none
    ')' ∉ a.name.toList ∧ ')' ∉ b.name.toList ∧ a ≠ b ∧ (anonymous a).name ≠ (anonymous b).name ∧
      (t.perform (.findField (.node (anonymous b)) "size")).1 =
        (s.perform (.findField (.node (anonymous b)) "size")).1 ∧
      (t.perform (.findField (.node (anonymous a)) "size")).1 = .field (some f) := by
  intro a b f s t
  have ha : ')' ∉ a.name.toList := by decide
  have hb : ')' ∉ b.name.toList := by decide
  have hne : a ≠ b := by decide
  obtain ⟨hname, hapart⟩ := anonymous_apart ha hb
  obtain ⟨-, hsame⟩ := hapart hne Index.empty ⟨0, .project⟩ none []
  refine ⟨ha, hb, hne, fun h => hne (hname.mp h), ?_, by decide +kernel⟩
  exact hsame [.field f] _ (List.forall_mem_singleton.mpr rfl) rfl

end Lineage
