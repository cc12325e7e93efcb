import Lineage.Proofs.CommandLine.Scan

/-!
# Scanning items

Words that a scan accepts are those of items, one after the other, up to where the side ends or two
dashes stand (`Scan.exists_items`). From item to item nothing is pending; each gives its option, or
its word to the command (`Scan.ends_items`).
-/

namespace Lineage.CommandLine

namespace Scan

section
variable {side : Side} {s t : Scan} {st : Settings} {word : String} {words ws : List String}
  {e : Ending}

/-- The scan goes on from where the step leaves it with nothing pending. -/
theorem exists_ends_iff {f : Except Refusal Scan} {g : Except Refusal Settings}
    (hf : f = g.map (idle · ws)) :
    (∃ t, f = .ok t ∧ t.Ends side words e) ↔
      ∃ st', g = .ok st' ∧ (idle st' ws).Ends side words e := by
  subst hf
  cases g with
  | error r => exact ⟨fun ⟨_, h, _⟩ => (nomatch h), fun ⟨_, h, _⟩ => (nomatch h)⟩
  | ok st' =>
    constructor
    · rintro ⟨_, ⟨rfl⟩, hend⟩
      exact ⟨st', rfl, hend⟩
    · rintro ⟨_, ⟨rfl⟩, hend⟩
      exact ⟨_, rfl, hend⟩

theorem ends_give {o : ValueOption} {text : String} :
    (∃ t, (idle st ws).give o text = .ok t ∧ t.Ends side words e) ↔
      ∃ st', st.give o text = .ok st' ∧ (idle st' ws).Ends side words e :=
  exists_ends_iff rfl

theorem ends_raise {o : FlagOption} :
    (∃ t, (idle st ws).switch (.flag o) = .ok t ∧ t.Ends side words e) ↔
      ∃ st', st.raise o = .ok st' ∧ (idle st' ws).Ends side words e :=
  exists_ends_iff rfl

theorem ends_await {o : ValueOption} {text : String} (hplain : Word.ofString text = .plain) :
    (∃ t, (idle st ws).await o = .ok t ∧ t.Ends side (text :: words) e) ↔
      ∃ st', st.give o text = .ok st' ∧ (idle st' ws).Ends side words e := by
  constructor
  · rintro ⟨_, ⟨rfl⟩, hend⟩
    obtain ⟨_, _, st', h, -, hgive, hend⟩ := ends_waiting.mp hend
    cases h
    exact ⟨st', hgive, hend⟩
  · rintro ⟨st', hgive, hend⟩
    exact ⟨_, rfl, ends_waiting.mpr ⟨text, words, st', rfl, hplain, hgive, hend⟩⟩

section
variable {name : String} {value : Option String} {c : Char} {cs : List Char}

theorem ends_idle_long (hw : Word.ofString word = .long name value) :
    (idle st ws).Ends side (word :: words) e ↔
      ∃ t, (idle st ws).long side name value = .ok t ∧ t.Ends side words e := by
  rw [ends_idle_cons (turn?_of_ne_plain (by rw [hw]; nofun))]
  unfold take
  rw [hw]
  rfl

theorem ends_idle_short (hw : Word.ofString word = .short cs) :
    (idle st ws).Ends side (word :: words) e ↔
      ∃ t, (idle st ws).short side cs = .ok t ∧ t.Ends side words e := by
  rw [ends_idle_cons (turn?_of_ne_plain (by rw [hw]; nofun))]
  unfold take
  rw [hw]
  rfl

end

/-- An item that is an option gives just this option. -/
theorem ends_option {i : Item} {g : Given} (hi : i.Fits side) (hg : i.given? = some g)
    {rest : List String} :
    (idle st ws).Ends side (i.words ++ rest) e ↔
      ∃ st', g.apply st = .ok st' ∧ (idle st' ws).Ends side rest e := by
  cases i with
  | word w => cases hg
  | flag o name =>
    cases hg
    have hswitch := Side.longSwitch?_eq_some_iff.mpr hi
    refine (ends_idle_long (Word.ofString_long (Switch.isName_of_mem_names hi.1))).trans ?_
    unfold long
    simp only [hswitch]
    exact ends_raise
  | equals o name text =>
    cases hg
    have hswitch := Side.longSwitch?_eq_some_iff.mpr hi
    refine (ends_idle_long (Word.ofString_equals (Switch.isName_of_mem_names hi.1))).trans ?_
    unfold long
    simp only [hswitch]
    exact ends_give
  | attached o c sign text =>
    cases hg
    obtain ⟨hname, htext⟩ := hi
    have hswitch := Side.shortSwitch?_eq_some_iff.mpr hname
    refine (ends_idle_short (Word.ofString_short (Switch.ne_dash_of_mem_letters hname.1))).trans ?_
    unfold short
    simp only [hswitch, List.isEmpty_eq_false_iff.mpr (Item.tail_ne_nil htext),
      Item.attached_tail htext]
    exact ends_give
  | apart o name text =>
    cases hg
    obtain ⟨hname, htext⟩ := hi
    have hplain := Word.ofString_eq_plain_iff.mpr htext
    cases name with
    | long name =>
      have hswitch := Side.longSwitch?_eq_some_iff.mpr hname
      refine (ends_idle_long (Word.ofString_long (Switch.isName_of_mem_names hname.1))).trans ?_
      unfold long
      simp only [hswitch]
      exact ends_await hplain
    | letter c =>
      have hswitch := Side.shortSwitch?_eq_some_iff.mpr hname
      refine (ends_idle_short (Word.ofString_short (Switch.ne_dash_of_mem_letters hname.1))).trans ?_
      unfold short
      simp only [hswitch]
      exact ends_await hplain

/-- A word of the command is kept if one is missing. -/
theorem ends_idle_plain (hturn : side.turn? word = none) (hw : Word.ofString word = .plain) :
    (idle st ws).Ends side (word :: words) e ↔
      ws.length < side.arity ∧ (idle st (ws ++ [word])).Ends side words e := by
  have htake : (idle st ws).take side word =
      ({ idle st ws with plainOnly := false } : Scan).plain side word := by
    unfold take
    rw [hw]
    rfl
  simp only [ends_idle_cons hturn, htake, plain_idle_eq_ok_iff]
  constructor
  · rintro ⟨_, ⟨hroom, rfl⟩, hend⟩
    exact ⟨hroom, hend⟩
  · rintro ⟨hroom, hend⟩
    exact ⟨_, ⟨hroom, rfl⟩, hend⟩

theorem ends_word {w : String} (hw : (Item.word w).Fits side) :
    (idle st ws).Ends side (w :: words) e ↔
      ws.length < side.arity ∧ (idle st (ws ++ [w])).Ends side words e := by
  obtain ⟨hside, hplain⟩ := hw
  refine ends_idle_plain ?_ (Word.ofString_eq_plain_iff.mpr hplain)
  cases side with
  | before => exact absurd rfl hside
  | after c => rfl

/-- Words that a scan accepts go on with an item, unless they end the side or begin with two
dashes. -/
def GoesOn (side : Side) (words : List String) : Prop :=
  ∃ (i : Item) (rest : List String), i.Fits side ∧ words = i.words ++ rest

theorem goesOn_long {name : String} {value : Option String}
    (hw : Word.ofString word = .long name value) (h : (idle st ws).Ends side (word :: words) e) :
    GoesOn side (word :: words) := by
  have hword := Word.eq_of_ofString hw _ rfl
  obtain ⟨t, ht, hend⟩ := (ends_idle_long hw).mp h
  unfold long at ht
  split at ht
  · cases ht
  · next o hswitch =>
    have hword : word = "--" ++ name := by simpa using hword
    cases o with
    | value o =>
      cases ht
      obtain ⟨text, rest, -, rfl, hplain, -, -⟩ := ends_waiting.mp hend
      exact ⟨.apart o (.long name) text, rest,
        ⟨Side.longSwitch?_eq_some_iff.mp hswitch, Word.ofString_eq_plain_iff.mp hplain⟩,
        by rw [hword]; rfl⟩
    | flag o =>
      exact ⟨.flag o name, words, Side.longSwitch?_eq_some_iff.mp hswitch, by rw [hword]; rfl⟩
    | help => cases ht
    | version => cases ht
  · next o text hswitch =>
    refine ⟨.equals o name text, words, Side.longSwitch?_eq_some_iff.mp hswitch, ?_⟩
    have hword : word = "--" ++ name ++ "=" ++ text := by simpa [String.append_assoc] using hword
    rw [hword]
    rfl
  · cases ht

theorem goesOn_short {c : Char} {cs : List Char} (hw : Word.ofString word = .short (c :: cs))
    (h : (idle st ws).Ends side (word :: words) e) : GoesOn side (word :: words) := by
  have hword : word = String.ofList ('-' :: c :: cs) := Word.eq_of_ofString hw _ rfl
  obtain ⟨t, ht, hend⟩ := (ends_idle_short hw).mp h
  unfold short at ht
  split at ht
  · cases ht
  · next o hswitch =>
    cases cs with
    | nil =>
      cases ht
      obtain ⟨text, rest, -, rfl, hplain, -, -⟩ := ends_waiting.mp hend
      exact ⟨.apart o (.letter c) text, rest,
        ⟨Side.shortSwitch?_eq_some_iff.mp hswitch, Word.ofString_eq_plain_iff.mp hplain⟩,
        by rw [hword]; rfl⟩
    | cons d ds =>
      obtain ⟨sign, text, htail, htext⟩ := Item.exists_tail_eq d ds
      refine ⟨.attached o c sign text, words,
        ⟨Side.shortSwitch?_eq_some_iff.mp hswitch, htext⟩, ?_⟩
      rw [hword, ← htail]
      rfl
  · next o hnot hswitch =>
    cases o with
    | value o => exact absurd rfl (hnot o)
    | flag o => exact absurd hswitch Side.shortSwitch?_ne_flag
    | help => cases ht
    | version => cases ht

theorem goesOn_plain (hturn : side.turn? word = none) (hw : Word.ofString word = .plain)
    (h : (idle st ws).Ends side (word :: words) e) : GoesOn side (word :: words) := by
  obtain ⟨hroom, -⟩ := (ends_idle_plain hturn hw).mp h
  have hside : side ≠ .before := by
    rintro rfl
    exact Nat.not_lt_zero _ hroom
  exact ⟨.word word, words, ⟨hside, Word.ofString_eq_plain_iff.mp hw⟩, rfl⟩

theorem goesOn_of_ends (hturn : side.turn? word = none) (hw : Word.ofString word ≠ .divider)
    (h : (idle st ws).Ends side (word :: words) e) : GoesOn side (word :: words) := by
  cases hform : Word.ofString word with
  | divider => exact absurd hform hw
  | long name value => exact goesOn_long hform h
  | short letters =>
    cases letters with
    | nil => exact absurd hform Word.ofString_ne_short_nil
    | cons c cs => exact goesOn_short hform h
  | plain => exact goesOn_plain hturn hform h

/-! ## All items -/

theorem filterMap_cons_eq_append {α β : Type} (f : α → Option β) (a : α) (as : List α) :
    (a :: as).filterMap f = (f a).toList ++ as.filterMap f := by
  cases h : f a <;> simp [h]

theorem ends_item {i : Item} (hi : i.Fits side) {rest : List String} :
    (idle st ws).Ends side (i.words ++ rest) e ↔
      ∃ st', i.given?.toList.foldlM Given.apply st = .ok st' ∧
        (i.operand? = none ∨ ws.length < side.arity) ∧
        (idle st' (ws ++ i.operand?.toList)).Ends side rest e := by
  have hoption {g : Given} (hg : i.given? = some g) (ho : i.operand? = none) :
      (idle st ws).Ends side (i.words ++ rest) e ↔
        ∃ st', i.given?.toList.foldlM Given.apply st = .ok st' ∧
          (i.operand? = none ∨ ws.length < side.arity) ∧
          (idle st' (ws ++ i.operand?.toList)).Ends side rest e := by
    rw [ends_option hi hg, hg, ho]
    simp
  cases i with
  | word w =>
    refine (ends_word hi).trans ⟨fun h => ⟨st, rfl, .inr h.1, h.2⟩, ?_⟩
    rintro ⟨st', h, hroom, hend⟩
    cases h
    exact ⟨hroom.resolve_left nofun, hend⟩
  | _ => exact hoption rfl rfl

/-- There is room for all words of the command if there is room for each. -/
theorem room_iff {arity : Nat} {w : Option String} {more : List String} :
    (w.toList ++ more = [] ∨ ws.length + (w.toList ++ more).length ≤ arity) ↔
      (w = none ∨ ws.length < arity) ∧
        (more = [] ∨ (ws ++ w.toList).length + more.length ≤ arity) := by
  cases w with
  | none => simp
  | some w =>
    have hnil : more = [] ↔ more.length = 0 := List.length_eq_zero_iff.symm
    simp only [Option.toList_some, List.singleton_append, List.length_append, List.length_cons,
      List.length_nil, reduceCtorEq, false_or, hnil]
    omega

/-- Items give their options one after the other, and their words to the command. -/
theorem ends_items {items : List Item} (hfits : ∀ i ∈ items, i.Fits side) {rest : List String} :
    (idle st ws).Ends side (items.flatMap Item.words ++ rest) e ↔
      ∃ st', (items.filterMap Item.given?).foldlM Given.apply st = .ok st' ∧
        (items.filterMap Item.operand? = [] ∨
          ws.length + (items.filterMap Item.operand?).length ≤ side.arity) ∧
        (idle st' (ws ++ items.filterMap Item.operand?)).Ends side rest e := by
  induction items generalizing st ws with
  | nil =>
    refine ⟨fun h => ⟨st, rfl, .inl rfl, ?_⟩, ?_⟩
    · rw [List.filterMap_nil, List.append_nil]
      exact h
    · rintro ⟨st', h, -, hend⟩
      cases h
      rw [List.filterMap_nil, List.append_nil] at hend
      exact hend
  | cons i items ih =>
    obtain ⟨hi, hitems⟩ := List.forall_mem_cons.mp hfits
    rw [List.flatMap_cons, List.append_assoc, ends_item hi]
    simp only [ih hitems, filterMap_cons_eq_append, List.foldlM_append, bind_eq_ok_iff, room_iff,
      List.append_assoc]
    constructor
    · rintro ⟨st₁, hi, hroom, st₂, hmore, hroom', hend⟩
      exact ⟨st₂, ⟨st₁, hi, hmore⟩, ⟨hroom, hroom'⟩, hend⟩
    · rintro ⟨st₂, ⟨st₁, hi, hmore⟩, ⟨hroom, hroom'⟩, hend⟩
      exact ⟨st₁, hi, hroom, st₂, hmore, hroom', hend⟩

/-- Where the items of a side stop. -/
def Stops (side : Side) (words : List String) : Prop :=
  ∀ word ∈ words.head?, side.turn? word ≠ none ∨ Word.ofString word = .divider

theorem exists_items (h : (idle st ws).Ends side words e) :
    ∃ (items : List Item) (rest : List String), (∀ i ∈ items, i.Fits side) ∧
      words = items.flatMap Item.words ++ rest ∧ Stops side rest := by
  induction hn : words.length using Nat.strongRecOn generalizing st ws words with
  | _ n ih =>
    subst hn
    cases words with
    | nil => exact ⟨[], [], nofun, rfl, nofun⟩
    | cons word more =>
      by_cases hstop : side.turn? word ≠ none ∨ Word.ofString word = .divider
      · exact ⟨[], word :: more, nofun, rfl, by rintro _ ⟨rfl⟩; exact hstop⟩
      · obtain ⟨hturn, hw⟩ := not_or.mp hstop
        obtain ⟨i, rest, hi, heq⟩ := goesOn_of_ends (of_not_not hturn) hw h
        rw [heq] at h ⊢
        obtain ⟨st', -, -, hend⟩ := (ends_item hi).mp h
        have hlt : rest.length < (word :: more).length := by
          rw [heq, List.length_append]
          have := i.length_words_pos
          omega
        obtain ⟨items, rest', hitems, rfl, hstop⟩ := ih _ hlt hend rfl
        refine ⟨i :: items, rest', List.forall_mem_cons.mpr ⟨hi, hitems⟩, ?_, hstop⟩
        rw [List.flatMap_cons, List.append_assoc]

end

end Scan

end Lineage.CommandLine
