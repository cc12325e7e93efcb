import Lineage.Proofs.CommandLine.Items

/-!
# Requests and their lines

The words that are a request are those of the lines that fit, and the request is what the line asks
for (`Request.ofWords_eq_ok_iff`). Of an option that stands on both sides of the command the inner
one counts; one that is given on one side only may as well be given on the other (`Line.Lowers`).
-/

namespace Lineage.CommandLine

theorem Command.arity_eq (c : Command) :
    c.arity = if c = .chain ∨ c = .complete then 1 else 2 := by
  cases c <;> rfl

theorem Command.query?_isSome_iff {c : Command} {s : Settings} {words : List String} :
    (c.query? s words).isSome ↔ words.length = c.arity := by
  rcases words with _ | ⟨a, _ | ⟨b, _ | ⟨d, more⟩⟩⟩ <;> cases c <;> simp [query?, arity]

namespace Line

variable {l : Line}

theorem operands_before {items : List Item} (h : ∀ i ∈ items, i.Fits .before) :
    items.filterMap Item.operand? = [] := by
  refine List.filterMap_eq_nil_iff.mpr fun i hi => ?_
  cases i with
  | word w => exact absurd rfl (h _ hi).1
  | _ => rfl

theorem Fits.ends_before (h : l.Fits) :
    ({} : Scan).Ends .before l.words
      ⟨.ofGiven l.outer, [], some (.command l.command, l.rest)⟩ := by
  have hnone := operands_before h.before
  show (Scan.idle {} []).Ends .before l.words _
  refine (Scan.ends_items h.before).mpr
    ⟨_, Given.foldlM_apply.mpr ⟨h.outer, rfl⟩, .inl hnone, ?_⟩
  have hturn : Side.before.turn? l.command.name = some (.command l.command) :=
    Turn.ofName?_eq_command_iff.mpr rfl
  refine (Scan.ends_idle_turn hturn).mpr ⟨rfl, ?_, rfl⟩
  rw [hnone]
  rfl

theorem Fits.ends_after (h : l.Fits) :
    ({} : Scan).Ends (.after l.command) l.rest ⟨.ofGiven l.inner, l.operands, none⟩ := by
  have harity := h.arity
  rw [← Command.arity_eq] at harity
  unfold operands at harity
  rw [List.length_append] at harity
  show (Scan.idle {} []).Ends (.after l.command) l.rest _
  refine (Scan.ends_items h.after).mpr
    ⟨_, Given.foldlM_apply.mpr ⟨h.inner, rfl⟩, .inr ?_, ?_⟩
  · show 0 + _ ≤ l.command.arity
    omega
  · unfold operands
    cases hplain : l.plain with
    | none => exact Scan.ends_idle_nil.mpr ⟨rfl, by simp, rfl⟩
    | some words =>
      rw [hplain] at harity
      refine Scan.ends_divider.mpr ⟨.inr ?_, rfl, rfl, rfl⟩
      exact Nat.le_of_eq harity

/-- Where the items before the command stop, there is the command. -/
theorem exists_before {words rest : List String} {c : Command} {e : Ending}
    (h : ({} : Scan).Ends .before words e) (hturn : e.turn = some (.command c, rest)) :
    ∃ items : List Item, (∀ i ∈ items, i.Fits .before) ∧
      words = items.flatMap Item.words ++ c.name :: rest ∧
      Given.Accepted (items.filterMap Item.given?) ∧
      e.settings = .ofGiven (items.filterMap Item.given?) := by
  have hidle : (Scan.idle {} []).Ends .before words e := h
  obtain ⟨items, stop, hitems, rfl, hstop⟩ := Scan.exists_items hidle
  obtain ⟨st, hst, -, hend⟩ := (Scan.ends_items hitems).mp hidle
  obtain ⟨haccepted, rfl⟩ := Given.foldlM_apply.mp hst
  cases stop with
  | nil =>
    obtain ⟨-, -, hnone⟩ := Scan.ends_idle_nil.mp hend
    rw [hturn] at hnone
    cases hnone
  | cons word more =>
    rcases hstop word rfl with hsome | hdivider
    · obtain ⟨turn, ht⟩ := Option.ne_none_iff_exists'.mp hsome
      obtain ⟨hsettings, -, hends⟩ := (Scan.ends_idle_turn ht).mp hend
      rw [hturn] at hends
      cases hends
      rw [Turn.ofName?_eq_command_iff.mp ht]
      exact ⟨items, hitems, rfl, haccepted, hsettings.symm⟩
    · rw [show word = "--" from Word.eq_of_ofString hdivider _ rfl] at hend
      obtain ⟨-, -, -, hnone⟩ := Scan.ends_divider.mp hend
      rw [hturn] at hnone
      cases hnone

/-- The items after the command stop only where the line does, or at two dashes. -/
theorem exists_after {words : List String} {c : Command} {e : Ending}
    (h : ({} : Scan).Ends (.after c) words e) :
    ∃ (items : List Item) (plain : Option (List String)), (∀ i ∈ items, i.Fits (.after c)) ∧
      words = items.flatMap Item.words ++ (plain.map ("--" :: ·)).getD [] ∧
      Given.Accepted (items.filterMap Item.given?) ∧
      e.settings = .ofGiven (items.filterMap Item.given?) ∧
      e.operands = items.filterMap Item.operand? ++ plain.getD [] := by
  have hidle : (Scan.idle {} []).Ends (.after c) words e := h
  obtain ⟨items, stop, hitems, rfl, hstop⟩ := Scan.exists_items hidle
  obtain ⟨st, hst, -, hend⟩ := (Scan.ends_items hitems).mp hidle
  obtain ⟨haccepted, rfl⟩ := Given.foldlM_apply.mp hst
  cases stop with
  | nil =>
    obtain ⟨hsettings, hwords, -⟩ := Scan.ends_idle_nil.mp hend
    refine ⟨items, none, hitems, rfl, haccepted, hsettings.symm, ?_⟩
    rw [← hwords]
    simp
  | cons word more =>
    have hdivider : Word.ofString word = .divider := (hstop word rfl).resolve_left fun h => h rfl
    rw [show word = "--" from Word.eq_of_ofString hdivider _ rfl] at hend ⊢
    obtain ⟨-, hsettings, hwords, -⟩ := Scan.ends_divider.mp hend
    exact ⟨items, some more, hitems, rfl, haccepted, hsettings.symm, hwords.symm⟩

end Line

namespace Request

theorem ofSide_eq_ok_iff {c : Command} {words : List String} {query : Query} {s : Settings} :
    ofSide c words = .ok (query, s) ↔ ∃ e : Ending, ({} : Scan).Ends (.after c) words e ∧
      e.settings = s ∧ c.query? s e.operands = some query := by
  unfold ofSide
  constructor
  · intro h
    obtain ⟨⟨t, turn⟩, hrun, h⟩ := bind_eq_ok_iff.mp h
    obtain ⟨st, hst, h⟩ := bind_eq_ok_iff.mp h
    cases hquery : c.query? st t.words with
    | none =>
      rw [hquery] at h
      cases h
    | some _ =>
      rw [hquery] at h
      cases h
      exact ⟨⟨s, t.words, turn⟩, ⟨t, hrun, hst, rfl⟩, rfl, hquery⟩
  · rintro ⟨e, ⟨t, hrun, hst, hwords⟩, rfl, hquery⟩
    refine bind_eq_ok_iff.mpr ⟨_, hrun, bind_eq_ok_iff.mpr ⟨_, hst, ?_⟩⟩
    rw [hwords, hquery]
    rfl

/-- A request comes from a command with what was given on both its sides. -/
theorem ofWords_eq_ok_iff_ends {words : List String} {r : Request} :
    ofWords words = .ok r ↔ ∃ (e e' : Ending) (c : Command) (rest : List String) (query : Query),
      ({} : Scan).Ends .before words e ∧ e.turn = some (.command c, rest) ∧
      ({} : Scan).Ends (.after c) rest e' ∧ c.query? e'.settings e'.operands = some query ∧
      r = ⟨e'.settings.within e.settings, query⟩ := by
  unfold ofWords
  constructor
  · intro h
    obtain ⟨⟨t, turn⟩, hrun, h⟩ := bind_eq_ok_iff.mp h
    rcases turn with _ | ⟨c | _, rest⟩
    · obtain ⟨_, _, h⟩ := bind_eq_ok_iff.mp h
      cases h
    · obtain ⟨⟨query, inner⟩, hside, h⟩ := bind_eq_ok_iff.mp h
      obtain ⟨st, hst, h⟩ := bind_eq_ok_iff.mp h
      obtain ⟨e', hend, rfl, hquery⟩ := ofSide_eq_ok_iff.mp hside
      exact ⟨⟨st, t.words, some (.command c, rest)⟩, e', c, rest, query, ⟨t, hrun, hst, rfl⟩, rfl,
        hend, hquery, (Except.ok.inj h).symm⟩
    · cases h
  · rintro ⟨e, e', c, rest, query, ⟨t, hrun, hst, -⟩, hturn, hend, hquery, rfl⟩
    refine bind_eq_ok_iff.mpr ⟨_, hrun, ?_⟩
    rw [hturn]
    exact bind_eq_ok_iff.mpr ⟨_, ofSide_eq_ok_iff.mpr ⟨e', hend, rfl, hquery⟩,
      bind_eq_ok_iff.mpr ⟨_, hst, rfl⟩⟩

/-- The words of a request are those of a line that fits, and nothing else is a request. -/
theorem ofWords_eq_ok_iff {words : List String} {r : Request} :
    ofWords words = .ok r ↔ ∃ l : Line, l.Fits ∧ l.words = words ∧ l.request? = some r := by
  rw [ofWords_eq_ok_iff_ends]
  constructor
  · rintro ⟨e, e', c, rest, query, hbefore, hturn, hafter, hquery, rfl⟩
    obtain ⟨before, hitems, rfl, houter, hsettings⟩ := Line.exists_before hbefore hturn
    obtain ⟨after, plain, hitems', rfl, hinner, hsettings', hoperands⟩ := Line.exists_after hafter
    rw [hsettings', hoperands] at hquery
    refine ⟨⟨before, c, after, plain⟩, ⟨hitems, hitems', houter, hinner, ?_⟩, rfl, ?_⟩
    · exact (Command.query?_isSome_iff.mp (Option.isSome_of_eq_some hquery)).trans c.arity_eq
    · rw [hsettings, hsettings']
      exact Option.map_eq_some_iff.mpr ⟨query, hquery, rfl⟩
  · rintro ⟨l, hfits, rfl, hrequest⟩
    obtain ⟨query, hquery, rfl⟩ := Option.map_eq_some_iff.mp hrequest
    exact ⟨_, _, l.command, l.rest, query, hfits.ends_before, rfl, hfits.ends_after, hquery, rfl⟩

end Request

theorem Line.Fits.exists_request {l : Line} (hl : l.Fits) : ∃ r, l.request? = some r := by
  rw [← Option.isSome_iff_exists, Line.request?, Option.isSome_map]
  exact Command.query?_isSome_iff.mpr (hl.arity.trans l.command.arity_eq.symm)

/-- Every line that can be read out of the words of a request asks for this request. -/
theorem Line.Fits.request?_of_ofWords {l : Line} (hl : l.Fits) {r : Request}
    (h : Request.ofWords l.words = .ok r) : l.request? = some r := by
  obtain ⟨r', hrequest⟩ := hl.exists_request
  have hsame := Request.ofWords_eq_ok_iff.mpr ⟨l, hl, rfl, hrequest⟩
  rw [h] at hsame
  cases hsame
  exact hrequest

/-! ## Options that stand on either side -/

theorem Item.Fits.of_isCommon {i : Item} {g : Given} {side side' : Side} (hg : i.given? = some g)
    (hcommon : g.switch.IsCommon) (h : i.Fits side) : i.Fits side' := by
  cases i with
  | word w => cases hg
  | flag o name =>
    cases hg
    exact ⟨h.1, hcommon side'⟩
  | equals o name text =>
    cases hg
    exact ⟨h.1, hcommon side'⟩
  | attached o c sign text =>
    cases hg
    exact ⟨⟨h.1.1, hcommon side'⟩, h.2⟩
  | apart o name text =>
    cases hg
    exact ⟨⟨h.1.1, hcommon side'⟩, h.2⟩

theorem Command.query?_congr {c : Command} {s t : Settings} (htyped : s.typed = t.typed)
    (hfield : s.asField = t.asField) (words : List String) :
    c.query? s words = c.query? t words := by
  unfold query?
  rw [htyped, hfield]

/-- What belongs to a command is not told by an option that both sides have. -/
theorem query?_cons_of_isCommon {g : Given} (hcommon : g.switch.IsCommon) {gs : List Given}
    (c : Command) (words : List String) :
    c.query? (.ofGiven (g :: gs)) words = c.query? (.ofGiven gs) words := by
  -- Neither option of completions may stand before the command.
  have htyped : ¬ (Switch.value .typed).IsCommon := fun h => nomatch h .before
  have hfield : ¬ (Switch.flag .asField).IsCommon := fun h => nomatch h .before
  refine Command.query?_congr ?_ ?_ words
  · have hnone : g.text? .typed = none := by
      cases g with
      | flag f => rfl
      | value o text =>
        refine if_neg fun heq => htyped ?_
        rwa [← heq]
    exact Given.valueOf_congr (Given.texts_cons_of_none hnone)
  · have hne : g ≠ .flag .asField := by
      rintro rfl
      exact hfield hcommon
    simp [Settings.ofGiven, Ne.symm hne]

namespace Line

/-- The line `m` is `l`, but for an option that `l` has before the command and `m` after it. The
option is given nowhere else. -/
inductive Lowers : Line → Line → Prop where
  | item {b b' a a' : List Item} {c : Command} {plain : Option (List String)} {i : Item}
      {g : Given} :
      i.given? = some g → g.switch.IsCommon →
      g.Alone ((b ++ b').filterMap Item.given?) → g.Alone ((a ++ a').filterMap Item.given?) →
      Lowers ⟨b ++ i :: b', c, a ++ a', plain⟩ ⟨b ++ b', c, a ++ i :: a', plain⟩

variable {l m : Line}

theorem filterMap_insert {items items' : List Item} {i : Item} {g : Given}
    (hg : i.given? = some g) :
    ((items ++ i :: items').filterMap Item.given?).Perm
      (g :: (items ++ items').filterMap Item.given?) := by
  have hperm : (items ++ i :: items').Perm (i :: (items ++ items')) := List.perm_middle
  rw [← List.filterMap_cons_some hg]
  exact hperm.filterMap _

theorem operands_insert {items items' : List Item} {i : Item} {g : Given}
    (hg : i.given? = some g) :
    (items ++ i :: items').filterMap Item.operand? = (items ++ items').filterMap Item.operand? := by
  have hnone : i.operand? = none := by
    cases i with
    | word w => cases hg
    | _ => rfl
  rw [List.filterMap_append, List.filterMap_append, List.filterMap_cons_none hnone]

theorem Lowers.fits_iff_fits (h : Lowers l m) : l.Fits ↔ m.Fits := by
  cases h with
  | @item b b' a a' c plain i g hg hcommon houter hinner =>
    have hitem : i.Fits .before ↔ i.Fits (.after c) :=
      ⟨.of_isCommon hg hcommon, .of_isCommon hg hcommon⟩
    have hb := (Given.accepted_perm_iff (filterMap_insert hg)).trans houter.accepted_cons_iff
    have ha := (Given.accepted_perm_iff (filterMap_insert hg)).trans hinner.accepted_cons_iff
    rw [fits_iff, fits_iff]
    simp only [outer, inner, operands, hb, ha, operands_insert hg, List.forall_mem_append,
      List.forall_mem_cons, hitem]
    tauto

/-- Wherever the option stands, the line asks for the same. -/
theorem Lowers.request?_eq (h : Lowers l m) (hl : l.Fits) : m.request? = l.request? := by
  have hm := h.fits_iff_fits.mp hl
  cases h with
  | @item b b' a a' c plain i g hg hcommon houter hinner =>
    have hin := hm.inner.ofGiven_perm (filterMap_insert hg)
    have hout := hl.outer.ofGiven_perm (filterMap_insert hg)
    unfold request? operands inner outer
    unfold inner at hin
    unfold outer at hout
    simp only at hin hout ⊢
    rw [hin, hout, query?_cons_of_isCommon hcommon, hinner.within_eq houter, operands_insert hg]

/-- The text that is given for an option. The one after the command counts first. -/
def text? (l : Line) (o : ValueOption) : Option String :=
  (Given.texts o l.inner).head?.or (Given.texts o l.outer).head?

/-- The flag is given on some side. -/
def Raises (l : Line) (o : FlagOption) : Prop := .flag o ∈ l.inner ∨ .flag o ∈ l.outer

variable {r : Request} {o : ValueOption}

theorem settings_of_request? (h : l.request? = some r) :
    r.settings = (Settings.ofGiven l.inner).within (.ofGiven l.outer) := by
  obtain ⟨query, -, rfl⟩ := Option.map_eq_some_iff.mp h
  rfl

theorem value_of_request? (h : l.request? = some r) :
    r.settings.value o = (Given.valueOf o l.inner).or (Given.valueOf o l.outer) := by
  rw [settings_of_request? h, Settings.value_within, Given.value_ofGiven, Given.value_ofGiven]

theorem value_of_text?_none (h : l.request? = some r) (ht : l.text? o = none) :
    r.settings.value o = none := by
  obtain ⟨hinner, houter⟩ := Option.or_eq_none_iff.mp ht
  rw [value_of_request? h, Given.valueOf_of_head?_none hinner, Given.valueOf_of_head?_none houter]
  rfl

theorem Fits.value_of_text?_some (hl : l.Fits) (h : l.request? = some r) {text : String}
    (ht : l.text? o = some text) : ∃ v, o.Means text v ∧ r.settings.value o = some v := by
  rw [value_of_request? h]
  rcases Option.or_eq_some_iff.mp ht with hinner | ⟨hnone, houter⟩
  · obtain ⟨v, hread, hv⟩ := hl.inner.valueOf_of_head? hinner
    exact ⟨v, hread, by rw [hv, Option.some_or]⟩
  · obtain ⟨v, hread, hv⟩ := hl.outer.valueOf_of_head? houter
    exact ⟨v, hread, by rw [Given.valueOf_of_head?_none hnone, hv, Option.none_or]⟩

theorem flag_of_request? (h : l.request? = some r) {f : FlagOption} :
    r.settings.flag f = true ↔ l.Raises f := by
  rw [settings_of_request? h, Settings.flag_within, Given.flag_ofGiven, Given.flag_ofGiven,
    Bool.or_eq_true, decide_eq_true_eq, decide_eq_true_eq]
  rfl

end Line

end Lineage.CommandLine
