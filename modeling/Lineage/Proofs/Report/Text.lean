import Lineage.Proofs.Text.Styled
import Lineage.Report.Render

/-!
# What a coloured report says

Colours are in nothing but the lines of candidates and the word in front of a diagnostic, and they
are all the escape sequences there if the names of a report have none. So a coloured text says what
the plain one says, to whoever takes the sequences out.
-/

namespace Lineage

open Text

def FieldDef.strings (f : FieldDef) : List String :=
  f.className :: f.name :: (f.types.map TypeSet.names).getD []

def MethodDef.strings (m : MethodDef) : List String := m.className :: m.name :: m.params

def Insertion.strings : Insertion → List String
  | reference => []
  | call params => params

def Candidate.strings (c : Candidate) : List String :=
  c.name :: c.owner :: (c.insertion.map Insertion.strings).getD []

/-- All strings that a finding has. -/
def Finding.strings : Finding → List String
  | chain names => names
  | field f => (f.map FieldDef.strings).getD []
  | method m => (m.map MethodDef.strings).getD []
  | types ts => (ts.map TypeSet.names).getD []
  | candidates entries => entries.flatMap Candidate.strings

theorem plain_chainLines {names : List String} (h : ∀ s ∈ names, Plain s) :
    ∀ s ∈ chainLines names, Plain s := by
  intro s hs
  obtain ⟨i, hi, rfl⟩ := List.mem_mapIdx.mp hs
  refine plain_append_iff.mpr ⟨?_, h _ (List.getElem_mem hi)⟩
  rw [Plain, String.toList_ofList]
  exact fun hmem => absurd (List.eq_of_mem_replicate hmem) (by decide)

theorem TypeSet.plain_text {ts : TypeSet} (h : ∀ s ∈ ts.names, Plain s) : Plain ts.text :=
  plain_intercalate (by decide) h

theorem FieldDef.plain_line {f : FieldDef} (h : ∀ s ∈ f.strings, Plain s) : Plain f.line := by
  obtain ⟨name, className, types, origin⟩ := f
  simp only [strings, List.forall_mem_cons] at h
  obtain ⟨hclass, hname, htypes⟩ := h
  have hfront : Plain (className ++ "." ++ name) :=
    plain_append_iff.mpr ⟨plain_append_iff.mpr ⟨hclass, by decide⟩, hname⟩
  cases types with
  | none => exact plain_append_iff.mpr ⟨hfront, (by decide : Plain "")⟩
  | some ts =>
    have hback : Plain (": " ++ ts.text) :=
      plain_append_iff.mpr ⟨by decide, TypeSet.plain_text htypes⟩
    exact plain_append_iff.mpr ⟨hfront, hback⟩

theorem MethodDef.plain_line {m : MethodDef} (h : ∀ s ∈ m.strings, Plain s) : Plain m.line := by
  simp only [strings, List.forall_mem_cons] at h
  obtain ⟨hclass, hname, hparams⟩ := h
  have hcall : Plain (if m.isStatic then "." else ":") := by split <;> decide
  have hparams : Plain (", ".intercalate m.params) := plain_intercalate (by decide) hparams
  simp only [line, plain_append_iff]
  exact ⟨⟨⟨⟨⟨hclass, hcall⟩, hname⟩, by decide⟩, hparams⟩, by decide⟩

theorem Insertion.plain_snippet {i : Insertion} {name : String} (hname : Plain name)
    (h : ∀ s ∈ i.strings, Plain s) : Plain (i.snippet name) := by
  cases i with
  | reference => exact hname
  | call params =>
    have hstops : ∀ s ∈ tabStops params, Plain s := by
      intro s hs
      obtain ⟨i, hi, rfl⟩ := List.mem_mapIdx.mp hs
      simp only [tabStop, plain_append_iff]
      exact ⟨⟨⟨⟨by decide, plain_toString _⟩, by decide⟩, h _ (List.getElem_mem hi)⟩, by decide⟩
    simp only [snippet, plain_append_iff]
    exact ⟨⟨⟨hname, by decide⟩, plain_intercalate (by decide) hstops⟩, by decide⟩

/-! ## Coloured lines -/

namespace Candidate

theorem plain_label {c : Candidate} (hname : Plain c.name)
    (h : ∀ s ∈ (c.insertion.map Insertion.strings).getD [], Plain s) : Plain c.label := by
  unfold label
  cases hinsertion : c.insertion with
  | none => exact hname
  | some insertion =>
    rw [hinsertion] at h
    exact Insertion.plain_snippet hname h

theorem plain_kindLabel (c : Candidate) : Plain c.kindLabel := by
  unfold kindLabel
  split <;> decide

theorem sheds_line {c : Candidate} (h : ∀ s ∈ c.strings, Plain s) :
    Sheds (c.line true) (c.line false) := by
  simp only [strings, List.forall_mem_cons] at h
  obtain ⟨hname, howner, hinsertion⟩ := h
  have htab : Sheds "\t" "\t" := .of_plain (by decide)
  have hlabel := sheds_styledIf (plain_label hname hinsertion) c.labelStyles
  have hkind := sheds_styledIf c.plain_kindLabel [.dimmed]
  have hline := hlabel.append htab |>.append hkind |>.append htab
  exact hline.append (sheds_styledIf howner [.dimmed])

end Candidate

theorem Diagnostic.sheds_line {d : Diagnostic} (h : Plain d.message) :
    Sheds (d.line true) (d.line false) := by
  have hword := sheds_styledIf (s := "warning") (by decide) [.bold, .yellow]
  have hcode : Plain d.codeText := plain_append_iff.mpr ⟨by decide, plain_toString d.code⟩
  have hline := hword.append (.of_plain (s := " ") (by decide)) |>.append (.of_plain hcode)
  exact hline.append (.of_plain (s := ": ") (by decide)) |>.append (.of_plain h)

theorem Finding.sheds_lines {f : Finding} (h : ∀ s ∈ f.strings, Plain s) :
    List.Forall₂ Sheds (f.lines true) (f.lines false) := by
  have hsame {lines : List String} (hplain : ∀ s ∈ lines, Plain s) :
      List.Forall₂ Sheds lines lines :=
    List.forall₂_same.mpr fun s hs => .of_plain (hplain s hs)
  cases f with
  | chain names => exact hsame (plain_chainLines h)
  | field f =>
    cases f with
    | none => exact .nil
    | some f => exact hsame (List.forall_mem_singleton.mpr (FieldDef.plain_line h))
  | method m =>
    cases m with
    | none => exact .nil
    | some m => exact hsame (List.forall_mem_singleton.mpr (MethodDef.plain_line h))
  | types ts =>
    cases ts with
    | none => exact .nil
    | some ts => exact hsame (List.forall_mem_singleton.mpr (TypeSet.plain_text h))
  | candidates entries =>
    show List.Forall₂ Sheds (entries.map (Candidate.line true)) (entries.map (Candidate.line false))
    rw [List.forall₂_map_left_iff, List.forall₂_map_right_iff, List.forall₂_same]
    exact fun c hc => Candidate.sheds_line fun s hs => h s (List.mem_flatMap.mpr ⟨c, hc, hs⟩)

/-- Without the style sequences a coloured report is the plain one, and so is a coloured diagnostic,
if there is no escape character in their strings. -/
theorem Report.unstyled_render :
    (∀ r : Report, (∀ s ∈ r.finding.strings, Plain s) →
      unstyled (r.render .text true) = r.render .text false) ∧
    ∀ d : Diagnostic, Plain d.message → unstyled (d.line true) = d.line false :=
  ⟨fun _ h => (Sheds.unlines (Finding.sheds_lines h)).unstyled_eq,
    fun _ h => (Diagnostic.sheds_line h).unstyled_eq⟩

/-- Names that look like the end of a style sequence stay. -/
theorem Report.unstyled_render_lookalike :
    let c : Candidate :=
      { name := "[1m", kind := .staticMethod, owner := "", standing := .own,
        insertion := some (.call ["0m"]) }
    let r : Report := ⟨.candidates [c], [], {}⟩
    let d : Diagnostic := .cyclic "A" "B"
    (∀ s ∈ r.finding.strings, Plain s) ∧ Plain d.message ∧
      r.render .text true =
        "\x1b[1;4m[1m($\x7b1:0m\x7d)\x1b[0m\t\x1b[2mstatic\x1b[0m\t\x1b[2m\x1b[0m\n" ∧
      unstyled (r.render .text true) = "[1m($\x7b1:0m\x7d)\tstatic\t\n" ∧
      unstyled (d.line true) = "warning NOM1001: Super chain of 'A' loops back to 'B'." := by
  intro c r d
  have hr : ∀ s ∈ r.finding.strings, Plain s := by decide
  have hd : Plain d.message := by decide
  refine ⟨hr, hd, by decide +kernel, ?_, ?_⟩
  · rw [unstyled_render.1 r hr]
    decide +kernel
  · rw [unstyled_render.2 d hd]
    decide +kernel

end Lineage
