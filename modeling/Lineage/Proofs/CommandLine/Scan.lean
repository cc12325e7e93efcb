import Lineage.Proofs.CommandLine.Line

/-!
# Scanning a line

The scanner looks at a value that is a word of its own only with the next word. Where all goes well
this makes no difference: a scan comes to an end exactly if its last option can be settled at once
and the scan from there comes to that end (`Scan.ends_iff_settled`). So it is enough to know scans
with nothing pending (`Scan.idle`), behind two dashes (`Scan.ends_plainOnly`), and behind an option
that waits for its value (`Scan.ends_waiting`).
-/

namespace Lineage.CommandLine

/-- What a side has given when it has come to its end. -/
structure Ending where
  settings : Settings
  operands : List String
  /-- What ended the side, with the words after that. -/
  turn : Option (Turn × List String) := none

namespace Scan

/-- The scan after its last option has been looked at. -/
def settled (s : Scan) (st : Settings) : Scan := { s with settings := st, pending := none }

/-- Taking `words`, the side comes to the end `e`, and the last option is all right too. -/
def Ends (side : Side) (s : Scan) (words : List String) (e : Ending) : Prop :=
  ∃ t, s.run side words = .ok (t, e.turn) ∧ t.settle = .ok e.settings ∧ t.words = e.operands

section
variable {side : Side} {s t : Scan} {st : Settings} {word : String} {words : List String}
  {e : Ending}

theorem ends_nil :
    s.Ends side [] e ↔ s.settle = .ok e.settings ∧ s.words = e.operands ∧ e.turn = none := by
  constructor
  · rintro ⟨t, h, hsettle, hwords⟩
    obtain ⟨rfl, hturn⟩ := Prod.mk.inj (Except.ok.inj h)
    exact ⟨hsettle, hwords, hturn.symm⟩
  · rintro ⟨hsettle, hwords, hturn⟩
    exact ⟨s, by rw [hturn]; rfl, hsettle, hwords⟩

theorem ends_turn {turn : Turn} (h : s.turn? side word = some turn) :
    s.Ends side (word :: words) e ↔
      s.settle = .ok e.settings ∧ s.words = e.operands ∧ e.turn = some (turn, words) := by
  unfold Ends
  rw [run, h]
  constructor
  · rintro ⟨t, h, hsettle, hwords⟩
    obtain ⟨rfl, hturn⟩ := Prod.mk.inj (Except.ok.inj h)
    exact ⟨hsettle, hwords, hturn.symm⟩
  · rintro ⟨hsettle, hwords, hturn⟩
    exact ⟨s, by rw [hturn], hsettle, hwords⟩

theorem ends_cons (h : s.turn? side word = none) :
    s.Ends side (word :: words) e ↔ ∃ t, s.take side word = .ok t ∧ t.Ends side words e := by
  unfold Ends
  rw [run, h]
  simp only [bind_eq_ok_iff]
  constructor
  · rintro ⟨u, ⟨t, ht, hrun⟩, hend⟩
    exact ⟨t, ht, u, hrun, hend⟩
  · rintro ⟨t, ht, u, hrun, hend⟩
    exact ⟨u, ⟨t, ht, hrun⟩, hend⟩

@[simp] theorem settle_settled : (s.settled st).settle = .ok st := rfl

/-- A step that goes well only if the last option can be settled, and then as it does afterwards. -/
def Settles (f : Scan → Except Refusal Scan) : Prop :=
  ∀ s t, f s = .ok t ↔ ∃ st, s.settle = .ok st ∧ f (s.settled st) = .ok t

theorem settles_error (r : Refusal) : Settles fun _ => .error r :=
  fun _ _ => ⟨nofun, fun ⟨_, _, h⟩ => nomatch h⟩

/-- What a step does once the last option is settled must not depend on what was pending. -/
theorem settles_settle {f : Scan → Except Refusal Scan}
    {g : Scan → Settings → Except Refusal Scan} (hf : ∀ s, f s = s.settle >>= g s)
    (hg : ∀ s st, g (s.settled st) st = g s st) : Settles f := by
  intro s t
  simp only [hf, settle_settled]
  rw [bind_eq_ok_iff]
  refine exists_congr fun st => and_congr_right fun _ => ?_
  rw [← hg s st]
  rfl

theorem Settles.bind {f g : Scan → Except Refusal Scan} (hf : Settles f) :
    Settles fun s => f s >>= g := by
  intro s t
  simp only [bind_eq_ok_iff]
  constructor
  · rintro ⟨u, hu, ht⟩
    obtain ⟨st, hst, hu'⟩ := (hf s u).mp hu
    exact ⟨st, hst, u, hu', ht⟩
  · rintro ⟨st, hst, u, hu, ht⟩
    exact ⟨u, (hf s u).mpr ⟨st, hst, hu⟩, ht⟩

theorem settles_await (o : ValueOption) : Settles (await · o) :=
  settles_settle (g := fun s st => .ok { s with settings := st, pending := some (o, none) })
    (fun _ => rfl) fun _ _ => rfl

theorem settles_give (o : ValueOption) (value : String) : Settles (give · o value) :=
  settles_settle
    (g := fun s st => do return { s with settings := ← st.give o value, pending := none })
    (fun _ => rfl) fun _ _ => rfl

theorem settles_switch (o : Switch) : Settles (switch · o) := by
  cases o with
  | value o => exact settles_await o
  | flag o =>
    exact settles_settle
      (g := fun s st => do return { s with settings := ← st.raise o, pending := none })
      (fun _ => rfl) fun _ _ => rfl
  | help => exact settles_settle (g := fun _ _ => .error .helpWanted) (fun _ => rfl) fun _ _ => rfl
  | version =>
    exact settles_settle (g := fun _ _ => .error .versionWanted) (fun _ => rfl) fun _ _ => rfl

theorem settles_long (side : Side) (name : String) (value : Option String) :
    Settles (long side · name value) := by
  unfold long
  rcases side.longSwitch? name with _ | o
  · exact settles_error _
  · cases value with
    | none => exact settles_switch o
    | some value =>
      cases o with
      | value o => exact settles_give o value
      | _ => exact settles_error _

theorem settles_short (side : Side) (c : Char) (cs : List Char) :
    Settles (short side · (c :: cs)) := by
  unfold short
  rcases side.shortSwitch? c with _ | o
  · exact settles_error _
  · cases o with
    | value o =>
      cases hcs : cs.isEmpty
      · exact settles_give o _
      · exact settles_await o
    | flag o => exact (settles_switch (.flag o)).bind
    | help => exact (settles_switch .help).bind
    | version => exact (settles_switch .version).bind

theorem settles_plain (side : Side) (word : String) : Settles (plain side · word) := by
  intro s t
  show s.plain side word = .ok t ↔
    ∃ st, s.settle = .ok st ∧ (s.settled st).plain side word = .ok t
  by_cases hroom : s.words.length < side.arity
  · have hkeep : Settles fun s => do
        return { s with settings := ← s.settle, pending := none, words := s.words ++ [word] } :=
      settles_settle
        (g := fun s st =>
          .ok { s with settings := st, pending := none, words := s.words ++ [word] })
        (fun _ => rfl) fun _ _ => rfl
    have hplain (u : Scan) (hu : u.words = s.words) : u.plain side word = do
        return { u with settings := ← u.settle, pending := none, words := u.words ++ [word] } :=
      if_pos (hu ▸ hroom)
    rw [hplain s rfl, hkeep s t]
    exact exists_congr fun st => by rw [hplain (s.settled st) rfl]
  · have hfull (u : Scan) (hu : u.words = s.words) :
        u.plain side word = .error (side.surplus u.plainOnly word) := if_neg (hu ▸ hroom)
    rw [hfull s rfl]
    exact ⟨nofun, fun ⟨st, _, h⟩ => by rw [hfull (s.settled st) rfl] at h; cases h⟩

/-- Nothing stands between the last option and its being settled. -/
def Ready (s : Scan) : Prop := s.plainOnly = true ∨ s.awaiting? = none

/-- A step settles the last option unless it only takes note of two dashes. -/
theorem take_eq_ok_iff (hr : s.Ready) (hd : s.plainOnly = true ∨ Word.ofString word ≠ .divider) :
    s.take side word = .ok t ↔
      ∃ st, s.settle = .ok st ∧ (s.settled st).take side word = .ok t := by
  unfold take
  show _ ↔ ∃ st, s.settle = .ok st ∧ (if s.plainOnly then _ else _) = _
  by_cases hp : s.plainOnly = true
  · simp only [if_pos hp]
    exact settles_plain side word s t
  · have hnone : s.awaiting? = none := hr.resolve_left hp
    simp only [if_neg hp]
    cases hw : Word.ofString word with
    | divider => exact absurd hw (hd.resolve_left hp)
    | long name value => exact settles_long side name value s t
    | short letters =>
      cases letters with
      | nil => exact absurd hw Word.ofString_ne_short_nil
      | cons c cs => exact settles_short side c cs s t
    | plain =>
      simp only [hnone]
      exact settles_plain side word s t

theorem take_divider (hp : s.plainOnly = false) (hw : Word.ofString word = .divider) :
    s.take side word = .ok { s with plainOnly := true } := by
  unfold take
  rw [hw, hp]
  rfl

theorem turn?_settled (hr : s.Ready) (st : Settings) :
    (s.settled st).turn? side word = s.turn? side word := by
  unfold turn?
  rcases hr with hp | hnone
  · show (if (s.plainOnly || _) = true then _ else _) = _
    rw [hp, Bool.true_or, Bool.true_or]
  · rw [hnone]
    rfl

/-- Where all goes well it makes no difference when the last option is looked at. -/
theorem ends_iff_settled (hr : s.Ready) :
    s.Ends side words e ↔ ∃ st, s.settle = .ok st ∧ (s.settled st).Ends side words e := by
  -- Only two dashes leave the last option as it is; any other step settles it, and so does the end.
  induction words generalizing s with
  | nil =>
    simp only [ends_nil, settle_settled]
    constructor
    · rintro ⟨hsettle, hend⟩
      exact ⟨_, hsettle, rfl, hend⟩
    · rintro ⟨st, hsettle, hst, hend⟩
      exact ⟨hsettle.trans hst, hend⟩
  | cons word words ih =>
    cases hs : s.turn? side word with
    | some turn =>
      have hst (st : Settings) : (s.settled st).turn? side word = some turn :=
        (turn?_settled hr st).trans hs
      simp only [ends_turn hs, ends_turn (hst _), settle_settled]
      constructor
      · rintro ⟨hsettle, hend⟩
        exact ⟨_, hsettle, rfl, hend⟩
      · rintro ⟨st, hsettle, hst, hend⟩
        exact ⟨hsettle.trans hst, hend⟩
    | none =>
      have hst (st : Settings) : (s.settled st).turn? side word = none :=
        (turn?_settled hr st).trans hs
      simp only [ends_cons hs, ends_cons (hst _)]
      by_cases hd : s.plainOnly = true ∨ Word.ofString word ≠ .divider
      · simp only [take_eq_ok_iff hr hd]
        constructor
        · rintro ⟨t, ⟨st, hsettle, ht⟩, hend⟩
          exact ⟨st, hsettle, t, ht, hend⟩
        · rintro ⟨st, hsettle, t, ht, hend⟩
          exact ⟨t, ⟨st, hsettle, ht⟩, hend⟩
      · obtain ⟨hp, hw⟩ := not_or.mp hd
        have hp := eq_false_of_ne_true hp
        have hw := of_not_not hw
        have htake (st : Settings) : (s.settled st).take side word =
            .ok { s.settled st with plainOnly := true } := take_divider hp hw
        simp only [take_divider hp hw, htake, Except.ok.injEq, exists_eq_left']
        exact ih (.inl rfl)

/-! ## Nothing pending -/

/-- A scan with nothing pending, before any two dashes. -/
def idle (st : Settings) (ws : List String) : Scan := { settings := st, words := ws }

variable {ws : List String}

theorem turn?_of_ne_plain (hw : Word.ofString word ≠ .plain) : side.turn? word = none := by
  cases side with
  | after c => rfl
  | before =>
    cases h : Turn.ofName? word with
    | none => exact h
    | some turn => exact absurd (Turn.plain_of_ofName? h) hw

theorem ends_idle_turn {turn : Turn} (h : side.turn? word = some turn) :
    (idle st ws).Ends side (word :: words) e ↔
      st = e.settings ∧ ws = e.operands ∧ e.turn = some (turn, words) := by
  have hs : (idle st ws).turn? side word = some turn := h
  rw [ends_turn hs]
  exact and_congr_left fun _ => ⟨Except.ok.inj, congrArg _⟩

theorem ends_idle_nil :
    (idle st ws).Ends side [] e ↔ st = e.settings ∧ ws = e.operands ∧ e.turn = none := by
  rw [ends_nil]
  exact and_congr_left fun _ => ⟨Except.ok.inj, congrArg _⟩

theorem ends_idle_cons (h : side.turn? word = none) :
    (idle st ws).Ends side (word :: words) e ↔
      ∃ t, (idle st ws).take side word = .ok t ∧ t.Ends side words e := by
  have hs : (idle st ws).turn? side word = none := h
  exact ends_cons hs

/-- A word of the command is taken as long as one is missing. -/
theorem plain_idle_eq_ok_iff (b : Bool) :
    ({ idle st ws with plainOnly := b } : Scan).plain side word = .ok t ↔
      ws.length < side.arity ∧ t = { idle st (ws ++ [word]) with plainOnly := b } := by
  unfold plain
  by_cases hroom : ws.length < side.arity
  · have hroom' : ({ idle st ws with plainOnly := b } : Scan).words.length < side.arity := hroom
    rw [if_pos hroom']
    exact ⟨fun h => ⟨hroom, (Except.ok.inj h).symm⟩, fun h => congrArg _ h.2.symm⟩
  · have hfull : ¬ ({ idle st ws with plainOnly := b } : Scan).words.length < side.arity := hroom
    rw [if_neg hfull]
    exact ⟨nofun, fun h => absurd h.1 hroom⟩

/-- Behind two dashes every word is one of the command's. -/
theorem ends_plainOnly :
    ({ idle st ws with plainOnly := true } : Scan).Ends side words e ↔
      (words = [] ∨ ws.length + words.length ≤ side.arity) ∧
        st = e.settings ∧ ws ++ words = e.operands ∧ e.turn = none := by
  induction words generalizing ws with
  | nil =>
    rw [ends_nil, List.append_nil]
    constructor
    · rintro ⟨hsettle, hend⟩
      exact ⟨.inl rfl, Except.ok.inj hsettle, hend⟩
    · rintro ⟨-, rfl, hend⟩
      exact ⟨rfl, hend⟩
  | cons word words ih =>
    rw [ends_cons rfl]
    constructor
    · rintro ⟨t, ht, hend⟩
      obtain ⟨hroom, rfl⟩ := (plain_idle_eq_ok_iff true).mp ht
      obtain ⟨hmore, hst, hwords, hturn⟩ := ih.mp hend
      rw [List.append_assoc] at hwords
      refine ⟨.inr ?_, hst, hwords, hturn⟩
      rw [List.length_append] at hmore
      rw [List.length_cons]
      rcases hmore with rfl | hmore
      · exact hroom
      · simp only [List.length_singleton] at hmore
        omega
    · rintro ⟨hmore, hst, hwords, hturn⟩
      have hroom : ws.length + (word :: words).length ≤ side.arity :=
        hmore.resolve_left (List.cons_ne_nil _ _)
      rw [List.length_cons] at hroom
      refine ⟨_, (plain_idle_eq_ok_iff true).mpr ⟨by omega, rfl⟩, ih.mpr ⟨.inr ?_, hst, ?_, hturn⟩⟩
      · rw [List.length_append, List.length_singleton]
        omega
      · rw [List.append_assoc]
        exact hwords

theorem ends_divider :
    (idle st ws).Ends side ("--" :: words) e ↔
      (words = [] ∨ ws.length + words.length ≤ side.arity) ∧
        st = e.settings ∧ ws ++ words = e.operands ∧ e.turn = none := by
  have hw : Word.ofString "--" = .divider := rfl
  have hnot : Word.ofString "--" ≠ .plain := by
    rw [hw]
    nofun
  rw [ends_idle_cons (turn?_of_ne_plain hnot), ← ends_plainOnly]
  simp only [take_divider (s := idle st ws) rfl hw, Except.ok.injEq, exists_eq_left']

/-- A scan whose last option has no value yet. -/
def waiting (st : Settings) (ws : List String) (o : ValueOption) : Scan :=
  { idle st ws with pending := some (o, none) }

/-- Only a plain word can be the value that an option waits for. -/
theorem take_waiting {o : ValueOption} (ht : (waiting st ws o).take side word = .ok t)
    (hend : t.Ends side words e) :
    Word.ofString word = .plain ∧ t = { idle st ws with pending := some (o, some word) } := by
  unfold take at ht
  cases hw : Word.ofString word with
  | plain =>
    rw [hw] at ht
    exact ⟨rfl, (Except.ok.inj ht).symm⟩
  | divider =>
    rw [hw] at ht
    cases ht
    obtain ⟨_, h, _⟩ := (ends_iff_settled (.inl rfl)).mp hend
    cases h
  | long name value =>
    rw [hw] at ht
    obtain ⟨_, h, _⟩ := (settles_long side name value _ _).mp ht
    cases h
  | short letters =>
    rw [hw] at ht
    cases letters with
    | nil => exact absurd hw Word.ofString_ne_short_nil
    | cons c cs =>
      obtain ⟨_, h, _⟩ := (settles_short side c cs _ _).mp ht
      cases h

/-- An option that waits for its value gets the next word, which must be plain. -/
theorem ends_waiting {o : ValueOption} :
    (waiting st ws o).Ends side words e ↔
      ∃ text rest st', words = text :: rest ∧ Word.ofString text = .plain ∧
        st.give o text = .ok st' ∧ (idle st' ws).Ends side rest e := by
  have hready (text : String) :
      ({ idle st ws with pending := some (o, some text) } : Scan).Ready := .inr rfl
  constructor
  · intro h
    cases words with
    | nil =>
      obtain ⟨hsettle, -⟩ := ends_nil.mp h
      cases hsettle
    | cons text rest =>
      obtain ⟨t, ht, hend⟩ := (ends_cons rfl).mp h
      obtain ⟨hplain, rfl⟩ := take_waiting ht hend
      obtain ⟨st', hgive, hend⟩ := (ends_iff_settled (hready text)).mp hend
      exact ⟨text, rest, st', rfl, hplain, hgive, hend⟩
  · rintro ⟨text, rest, st', rfl, hplain, hgive, hend⟩
    refine (ends_cons rfl).mpr ⟨_, ?_, (ends_iff_settled (hready text)).mpr ⟨st', hgive, hend⟩⟩
    unfold take
    rw [hplain]
    rfl

end

end Scan

end Lineage.CommandLine
