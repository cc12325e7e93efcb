import Lineage.Proofs.Json.Shape
import Lineage.Proofs.Snapshot
import Lineage.Report.Render

/-!
# What a JSON report tells

Each part of a report is known from the JSON that is written of it, so the whole report is but for
the counters, which are not written. A finding has two entries and the diagnostics come behind them,
so an entry of the one is never taken for the other. The types of a field that have not been found
are `null` and an empty set of them is an empty array.
-/

namespace Lineage

open Json

theorem MemberKind.word_injective : Function.Injective word := by
  intro k l h
  cases k <;> cases l <;> first | rfl | exact absurd h (by decide)

theorem Standing.word_injective : Function.Injective word := by
  intro s t h
  cases s <;> cases t <;> first | rfl | exact absurd h (by decide)

theorem Insertion.toJson_injective : Function.Injective toJson := by
  intro i j h
  cases i with
  | reference =>
    cases j with
    | reference => rfl
    | call qs => simp [toJson] at h
  | call ps =>
    cases j with
    | reference => simp [toJson] at h
    | call qs =>
      simp only [toJson, Value.object.injEq, List.cons.injEq, Prod.mk.injEq, true_and,
        and_true] at h
      exact congrArg call (Value.ofNames_injective h)

theorem Candidate.toJson_injective : Function.Injective toJson := by
  intro c d h
  simp only [toJson, Value.object.injEq, List.cons_append, List.nil_append, List.cons.injEq,
    Prod.mk.injEq, Value.string.injEq, true_and] at h
  obtain ⟨hname, hkind, howner, hstanding, hinsertion⟩ := h
  cases c
  cases d
  simp only [Candidate.mk.injEq]
  exact ⟨hname, MemberKind.word_injective hkind, howner, Standing.word_injective hstanding,
    Value.optionalEntry_injective Insertion.toJson_injective _ hinsertion⟩

theorem Diagnostic.toJson_injective : Function.Injective toJson := by
  intro d e h
  simp only [toJson, Value.object.injEq, List.cons.injEq, Prod.mk.injEq, Value.number.injEq,
    Value.string.injEq, true_and, and_true] at h
  cases d
  cases e
  simpa only [Diagnostic.mk.injEq] using h

namespace Finding

theorem length_entries (f : Finding) : f.entries.length = 2 := by cases f <;> rfl

/-- The first entry tells the kind of the finding, the second one holds the finding itself. -/
theorem entries_injective : Function.Injective entries := by
  intro f g h
  cases f with
  | chain names =>
    cases g with
    | chain names' =>
      simp only [entries, List.cons.injEq, Prod.mk.injEq, true_and, and_true] at h
      exact congrArg chain (Value.ofNames_injective h)
    | _ => simp [entries] at h
  | field f =>
    cases g with
    | field f' =>
      simp only [entries, List.cons.injEq, Prod.mk.injEq, true_and, and_true] at h
      have hwrite := FieldDef.restores.injective
      exact congrArg field (Value.ofOption_injective hwrite (fun _ => nofun) h)
    | _ => simp [entries] at h
  | method m =>
    cases g with
    | method m' =>
      simp only [entries, List.cons.injEq, Prod.mk.injEq, true_and, and_true] at h
      have hwrite := MethodDef.restores.injective
      exact congrArg method (Value.ofOption_injective hwrite (fun _ => nofun) h)
    | _ => simp [entries] at h
  | types ts =>
    cases g with
    | types ts' =>
      simp only [entries, List.cons.injEq, Prod.mk.injEq, true_and, and_true] at h
      have hwrite := TypeSet.restores.injective
      exact congrArg types (Value.ofOption_injective hwrite (fun _ => nofun) h)
    | _ => simp [entries] at h
  | candidates cs =>
    cases g with
    | candidates cs' =>
      simp only [entries, List.cons.injEq, Prod.mk.injEq, true_and, and_true,
        Value.array.injEq] at h
      exact congrArg candidates (Candidate.toJson_injective.list_map h)
    | _ => simp [entries] at h

end Finding

namespace Report

variable {r r' : Report}

/-- Diagnostics are left out if there are none, so an array of them is never empty. -/
theorem diagnostics_eq_of_entries (h : r.diagnosticEntries = r'.diagnosticEntries) :
    r.diagnostics = r'.diagnostics := by
  unfold diagnosticEntries at h
  cases hr : r.diagnostics with
  | nil =>
    cases hr' : r'.diagnostics with
    | nil => rfl
    | cons e es => simp [hr, hr'] at h
  | cons d ds =>
    cases hr' : r'.diagnostics with
    | nil => simp [hr, hr'] at h
    | cons e es =>
      rw [hr, hr'] at h
      obtain ⟨hentry, -⟩ := List.cons.inj h
      exact Diagnostic.toJson_injective.list_map (Value.array.inj (Prod.mk.inj hentry).2)

theorem toJson_eq_iff :
    r.toJson = r'.toJson ↔ r.finding = r'.finding ∧ r.diagnostics = r'.diagnostics := by
  constructor
  · intro h
    have hlength : r.finding.entries.length = r'.finding.entries.length := by
      rw [Finding.length_entries, Finding.length_entries]
    obtain ⟨hfinding, hdiagnostics⟩ := List.append_inj (Value.object.inj h) hlength
    exact ⟨Finding.entries_injective hfinding, diagnostics_eq_of_entries hdiagnostics⟩
  · rintro ⟨hfinding, hdiagnostics⟩
    simp only [toJson, diagnosticEntries, hfinding, hdiagnostics]

/-- A report is printed as one object and an end of line. Two reports are printed the same, with
colours or without, exactly if they have found the same and report the same diagnostics. -/
theorem render_json_eq_iff (r r' : Report) (color color' : Bool) :
    (∃ (entries : List (StringLexeme × Doc)) (text : String),
      (Doc.object entries .closed).WrittenAs text ∧ r.render .json color = text ++ "\n") ∧
    (r.render .json color = r'.render .json color' ↔
      r.finding = r'.finding ∧ r.diagnostics = r'.diagnostics) := by
  refine ⟨⟨_, _, r.toJson.written_text .indented, rfl⟩, ?_⟩
  show r.toJson.text .indented ++ "\n" = r'.toJson.text .indented ++ "\n" ↔ _
  rw [String.append_left_inj, (Value.text_injective .indented).eq_iff, toJson_eq_iff]

end Report

end Lineage
