import Mathlib.Data.List.Induction
import Lineage.CommandLine
import Lineage.Proofs.Basic

/-!
# What options leave behind

The settings of one side of a command, told by the options that were given there. Each option is
given by itself: it needs its own place to be empty and its own text to be readable, and fills that
place only (`Settings.give_eq_ok_iff`). So a list of options is accepted if no option comes twice
and every text can be read, and it leaves what each option says (`Given.foldlM_apply`), whatever
the order.
-/

namespace Lineage.CommandLine

/-! ## Texts -/

/-- A path is any text but the empty one. -/
inductive PathText : String → String → Prop where
  | path {text : String} (h : text ≠ "") : PathText text text

/-- A scope has its words, in which the case of the letters does not matter. -/
inductive ScopeText : String → Scope → Prop where
  | project {text : String} (h : text.toLower = "project") : ScopeText text .project
  | all {text : String}
    (h : text.toLower ∈ ["projectandlibraries", "project-and-libraries", "all"]) :
    ScopeText text .projectAndLibraries

/-- A limit is a decimal number that 32 bits hold, maybe with a plus sign. Zero may have a minus
sign too. -/
inductive LimitText : String → UInt32 → Prop where
  | digits {cs : List Char} {k : UInt32} (h : Decimal.IsNumeral cs)
    (hk : Nat.ofDigitChars 10 cs 0 = k.toNat) : LimitText (String.ofList cs) k
  | plus {cs : List Char} {k : UInt32} (h : Decimal.IsNumeral cs)
    (hk : Nat.ofDigitChars 10 cs 0 = k.toNat) : LimitText (String.ofList ('+' :: cs)) k
  | minus {cs : List Char} (h : Decimal.IsNumeral cs) (hzero : Nat.ofDigitChars 10 cs 0 = 0) :
    LimitText (String.ofList ('-' :: cs)) 0

inductive FormatText : String → Format → Prop where
  | text : FormatText "text" .text
  | json : FormatText "json" .json

namespace ValueOption

/-- What the texts of an option stand for. -/
def Value : ValueOption → Type
  | config | index | typed => String
  | scope => Scope
  | limit => UInt32
  | format => Format

/-- The text that is given for an option means this value. -/
def Means : (o : ValueOption) → String → o.Value → Prop
  | config => PathText
  | index => PathText
  | scope => ScopeText
  | limit => LimitText
  | format => FormatText
  | typed => fun text value => text = value

def read : (o : ValueOption) → String → Except Refusal o.Value
  | config => readPath
  | index => readPath
  | scope => readScope
  | limit => readLimit
  | format => readFormat
  | typed => .ok

end ValueOption

section
variable {text : String}

theorem readPath_eq_ok_iff {path : String} : readPath text = .ok path ↔ PathText text path := by
  unfold readPath
  constructor
  · intro h
    split at h <;> cases h
    exact .path ‹_›
  · rintro ⟨h⟩
    exact if_neg h

theorem readScope_eq_ok_iff {scope : Scope} :
    readScope text = .ok scope ↔ ScopeText text scope := by
  unfold readScope
  constructor
  · intro h
    split at h <;> cases h
    · exact .project ‹_›
    all_goals exact .all (by simp [*])
  · rintro (h | h)
    · rw [h]
      rfl
    · simp only [List.mem_cons, List.not_mem_nil, or_false] at h
      rcases h with h | h | h <;> rw [h] <;> rfl

theorem readFormat_eq_ok_iff {format : Format} :
    readFormat text = .ok format ↔ FormatText text format := by
  unfold readFormat
  constructor
  · intro h
    split at h <;> cases h <;> constructor
  · rintro (_ | _) <;> rfl

theorem readSigned_eq_some_iff {cs : List Char} {n : Nat} :
    readSigned cs = some n ↔ ∃ ds, Decimal.IsNumeral ds ∧ Nat.ofDigitChars 10 ds 0 = n ∧
      (cs = ds ∨ cs = '+' :: ds ∨ cs = '-' :: ds ∧ n = 0) := by
  -- No sign is a digit.
  have hsign {c : Char} {ds : List Char} (hc : c.isDigit = false) : ¬ Decimal.IsNumeral (c :: ds) :=
    fun h => Bool.false_ne_true (hc.symm.trans (h.2 c List.mem_cons_self))
  constructor
  · intro h
    unfold readSigned Decimal.unsigned? at h
    split at h
    · obtain ⟨hds, hzero⟩ := Option.filter_eq_some_iff.mp h
      obtain ⟨hds, hn⟩ := Decimal.natural?_eq_some_iff.mp hds
      exact ⟨_, hds, hn, .inr (.inr ⟨rfl, eq_of_beq hzero⟩)⟩
    · split at h <;> obtain ⟨hds, hn⟩ := Decimal.natural?_eq_some_iff.mp h
      · exact ⟨_, hds, hn, .inr (.inl rfl)⟩
      · exact ⟨_, hds, hn, .inl rfl⟩
  · rintro ⟨ds, hds, hn, rfl | rfl | ⟨rfl, rfl⟩⟩
    · have hvalue := Decimal.natural?_eq_some_iff.mpr ⟨hds, hn⟩
      unfold readSigned Decimal.unsigned?
      split
      · exact absurd hds (hsign rfl)
      · split
        · exact absurd hds (hsign rfl)
        · exact hvalue
    · exact Decimal.natural?_eq_some_iff.mpr ⟨hds, hn⟩
    · exact Option.filter_eq_some_iff.mpr ⟨Decimal.natural?_eq_some_iff.mpr ⟨hds, hn⟩, rfl⟩

theorem readLimit_eq_ok_iff_signed {k : UInt32} :
    readLimit text = .ok k ↔ readSigned text.toList = some k.toNat := by
  unfold readLimit
  cases readSigned text.toList with
  | none => exact ⟨nofun, nofun⟩
  | some n =>
    show (if n < UInt32.size then _ else _) = _ ↔ _
    rw [Option.some.injEq]
    constructor
    · intro h
      split at h <;> cases h
      exact (UInt32.toNat_ofNat_of_lt' ‹_›).symm
    · rintro rfl
      rw [if_pos k.toNat_lt_size, UInt32.ofNat_toNat]

theorem readLimit_eq_ok_iff {k : UInt32} : readLimit text = .ok k ↔ LimitText text k := by
  rw [readLimit_eq_ok_iff_signed, readSigned_eq_some_iff]
  constructor
  · rintro ⟨ds, hds, hk, h | h | ⟨h, hzero⟩⟩ <;>
      rw [← String.ofList_toList (s := text), h]
    · exact .digits hds hk
    · exact .plus hds hk
    · obtain rfl : k = 0 := UInt32.toNat_inj.mp hzero
      exact .minus hds hk
  · rintro (⟨hds, hk⟩ | ⟨hds, hk⟩ | ⟨hds, hzero⟩)
    · exact ⟨_, hds, hk, .inl String.toList_ofList⟩
    · exact ⟨_, hds, hk, .inr (.inl String.toList_ofList)⟩
    · exact ⟨_, hds, hzero, .inr (.inr ⟨String.toList_ofList, rfl⟩)⟩

theorem ValueOption.read_eq_ok_iff {o : ValueOption} {v : o.Value} :
    o.read text = .ok v ↔ o.Means text v := by
  cases o with
  | config => exact readPath_eq_ok_iff
  | index => exact readPath_eq_ok_iff
  | scope => exact readScope_eq_ok_iff
  | limit => exact readLimit_eq_ok_iff
  | format => exact readFormat_eq_ok_iff
  | typed => exact ⟨Except.ok.inj, congrArg _⟩

end

namespace Settings

def value (s : Settings) : (o : ValueOption) → Option o.Value
  | .config => s.config
  | .index => s.index
  | .scope => s.scope
  | .limit => s.limit
  | .format => s.format
  | .typed => s.typed

def flag (s : Settings) : FlagOption → Bool
  | .ignoreCase => s.ignoreCase
  | .stats => s.stats
  | .asField => s.asField

def put (s : Settings) : (o : ValueOption) → o.Value → Settings
  | .config, v => { s with config := some v }
  | .index, v => { s with index := some v }
  | .scope, v => { s with scope := some v }
  | .limit, v => { s with limit := some v }
  | .format, v => { s with format := some v }
  | .typed, v => { s with typed := some v }

def lift (s : Settings) : FlagOption → Settings
  | .ignoreCase => { s with ignoreCase := true }
  | .stats => { s with stats := true }
  | .asField => { s with asField := true }

section
variable {s t : Settings} {o o' : ValueOption} {f f' : FlagOption}

theorem ext_places (hv : ∀ o, s.value o = t.value o) (hf : ∀ f, s.flag f = t.flag f) : s = t := by
  cases s
  cases t
  simp only [mk.injEq]
  exact ⟨hv .config, hv .index, hv .scope, hv .limit, hv .format, hv .typed, hf .ignoreCase,
    hf .stats, hf .asField⟩

@[simp] theorem value_put_self (v : o.Value) : (s.put o v).value o = some v := by
  cases o <;> rfl

theorem value_put_of_ne (v : o.Value) (h : o' ≠ o) : (s.put o v).value o' = s.value o' := by
  cases o <;> cases o' <;> first | rfl | exact absurd rfl h

@[simp] theorem flag_put (v : o.Value) : (s.put o v).flag f = s.flag f := by
  cases o <;> cases f <;> rfl

@[simp] theorem value_lift : (s.lift f).value o = s.value o := by
  cases f <;> cases o <;> rfl

@[simp] theorem flag_lift_self : (s.lift f).flag f = true := by
  cases f <;> rfl

theorem flag_lift_of_ne (h : f' ≠ f) : (s.lift f).flag f' = s.flag f' := by
  cases f <;> cases f' <;> first | rfl | exact absurd rfl h

@[simp] theorem value_within : (s.within t).value o = (s.value o).or (t.value o) := by
  cases o <;> rfl

@[simp] theorem flag_within : (s.within t).flag f = (s.flag f || t.flag f) := by
  cases f <;> rfl

theorem fill_eq_ok_iff {α : Type} {place : Option α} {value : Except Refusal α}
    {filled : Option α} :
    fill place value = .ok filled ↔ place = none ∧ ∃ v, value = .ok v ∧ filled = some v := by
  unfold fill
  cases place with
  | some _ => simp
  | none => cases value <;> simp [Except.map, eq_comm]

theorem give_eq_ok_iff {text : String} :
    s.give o text = .ok t ↔ s.value o = none ∧ ∃ v, o.Means text v ∧ t = s.put o v := by
  simp only [← ValueOption.read_eq_ok_iff]
  have hfill {α : Type} (place : Option α) (value : Except Refusal α) (f : Option α → Settings) :
      (fill place value >>= fun filled => .ok (f filled)) = .ok t ↔
        place = none ∧ ∃ v, value = .ok v ∧ t = f (some v) := by
    rw [bind_eq_ok_iff]
    constructor
    · rintro ⟨_, h, h'⟩
      obtain ⟨hplace, v, hv, rfl⟩ := fill_eq_ok_iff.mp h
      exact ⟨hplace, v, hv, (Except.ok.inj h').symm⟩
    · rintro ⟨hplace, v, hv, rfl⟩
      exact ⟨_, fill_eq_ok_iff.mpr ⟨hplace, v, hv, rfl⟩, rfl⟩
  cases o <;> exact hfill _ _ _

theorem raise_eq_ok_iff : s.raise f = .ok t ↔ s.flag f = false ∧ t = s.lift f := by
  have hraise (flag : Bool) (g : Bool → Settings) :
      (raiseFlag flag >>= fun raised => .ok (g raised)) = .ok t ↔ flag = false ∧ t = g true := by
    cases flag with
    | true => exact ⟨nofun, nofun⟩
    | false => exact ⟨fun h => ⟨rfl, (Except.ok.inj h).symm⟩, fun h => congrArg _ h.2.symm⟩
  cases f <;> exact hraise _ _

end

end Settings

/-! ## All options of a side -/

/-- An option as it is given. -/
inductive Given where
  | value (o : ValueOption) (text : String)
  | flag (o : FlagOption)
  deriving DecidableEq

namespace Given

def switch : Given → Switch
  | value o _ => .value o
  | flag o => .flag o

def text? (o : ValueOption) : Given → Option String
  | value o' text => if o' = o then some text else none
  | flag _ => none

/-- The settings after an option. -/
def apply (s : Settings) : Given → Except Refusal Settings
  | value o text => s.give o text
  | flag o => s.raise o

/-- The texts that are given for `o`. -/
def texts (o : ValueOption) (gs : List Given) : List String := gs.filterMap (text? o)

/-- No option is given twice, and every text means something. -/
structure Accepted (gs : List Given) : Prop where
  once : ∀ o, (texts o gs).length ≤ 1
  readable : ∀ o, ∀ text ∈ texts o gs, ∃ v, o.Means text v
  flags : ∀ o, gs.count (.flag o) ≤ 1

def valueOf (o : ValueOption) (gs : List Given) : Option o.Value :=
  (texts o gs).head?.bind fun text => (o.read text).toOption

end Given

/-- What the options of a side say. -/
def Settings.ofGiven (gs : List Given) : Settings where
  config := Given.valueOf .config gs
  index := Given.valueOf .index gs
  scope := Given.valueOf .scope gs
  limit := Given.valueOf .limit gs
  format := Given.valueOf .format gs
  typed := Given.valueOf .typed gs
  ignoreCase := decide (.flag .ignoreCase ∈ gs)
  stats := decide (.flag .stats ∈ gs)
  asField := decide (.flag .asField ∈ gs)

namespace Given

section
variable {gs gs' : List Given} {g : Given} {o o' : ValueOption} {f : FlagOption} {text : String}
  {s : Settings}

@[simp] theorem value_ofGiven : (Settings.ofGiven gs).value o = valueOf o gs := by
  cases o <;> rfl

@[simp] theorem flag_ofGiven : (Settings.ofGiven gs).flag f = decide (.flag f ∈ gs) := by
  cases f <;> rfl

theorem texts_append : texts o (gs ++ gs') = texts o gs ++ texts o gs' := List.filterMap_append

theorem texts_concat_self : texts o (gs ++ [.value o text]) = texts o gs ++ [text] := by
  simp [texts, text?]

theorem texts_concat_of_ne (h : o' ≠ o) : texts o' (gs ++ [.value o text]) = texts o' gs := by
  simp [texts, text?, Ne.symm h]

theorem texts_concat_flag : texts o (gs ++ [.flag f]) = texts o gs := by
  simp [texts, text?]

theorem texts_perm (h : gs.Perm gs') : (texts o gs).Perm (texts o gs') := h.filterMap _

theorem valueOf_congr (h : texts o gs = texts o gs') : valueOf o gs = valueOf o gs' := by
  rw [valueOf, valueOf, h]

theorem valueOf_of_head?_none (h : (texts o gs).head? = none) : valueOf o gs = none := by
  rw [valueOf, h, Option.bind_none]

theorem valueOf_of_head?_some {v : o.Value} (h : (texts o gs).head? = some text)
    (hv : o.Means text v) : valueOf o gs = some v := by
  rw [valueOf, h, Option.bind_some, ValueOption.read_eq_ok_iff.mpr hv]
  rfl

/-- In an accepted list an option has the value that its text stands for. -/
theorem Accepted.valueOf_of_head? (h : Accepted gs) (ht : (texts o gs).head? = some text) :
    ∃ v, o.Means text v ∧ valueOf o gs = some v := by
  obtain ⟨v, hv⟩ := h.readable o text (List.mem_of_mem_head? ht)
  exact ⟨v, hv, valueOf_of_head?_some ht hv⟩

/-- In an accepted list an option has no value only if it has not been given. -/
theorem Accepted.valueOf_eq_none_iff (h : Accepted gs) : valueOf o gs = none ↔ texts o gs = [] := by
  constructor
  · intro hnone
    match htexts : texts o gs with
    | [] => rfl
    | text :: more =>
      obtain ⟨v, -, hv⟩ := h.valueOf_of_head? (congrArg List.head? htexts)
      rw [hnone] at hv
      cases hv
  · intro htexts
    exact valueOf_of_head?_none (congrArg List.head? htexts)

theorem Accepted.of_append (h : Accepted (gs ++ gs')) : Accepted gs where
  once o := by
    have ho := h.once o
    rw [texts_append, List.length_append] at ho
    omega
  readable o text htext :=
    h.readable o text (by rw [texts_append]; exact List.mem_append_left _ htext)
  flags o := by
    have ho := h.flags o
    rw [List.count_append] at ho
    omega

theorem Accepted.concat_value_iff (h : Accepted gs) :
    Accepted (gs ++ [.value o text]) ↔ texts o gs = [] ∧ ∃ v, o.Means text v := by
  constructor
  · intro hall
    have honce := hall.once o
    rw [texts_concat_self, List.length_append, List.length_singleton] at honce
    exact ⟨List.eq_nil_of_length_eq_zero (by omega),
      hall.readable o text (by rw [texts_concat_self]; exact List.mem_concat_self)⟩
  · rintro ⟨hnew, hmeans⟩
    refine ⟨fun o' => ?_, fun o' => ?_, fun f => ?_⟩
    · by_cases ho : o' = o
      · subst ho
        rw [texts_concat_self, hnew]
        exact Nat.le_refl 1
      · rw [texts_concat_of_ne ho]
        exact h.once o'
    · by_cases ho : o' = o
      · subst ho
        rw [texts_concat_self, hnew]
        exact List.forall_mem_singleton.mpr hmeans
      · rw [texts_concat_of_ne ho]
        exact h.readable o'
    · rw [List.count_append]
      exact h.flags f

theorem Accepted.concat_flag_iff (h : Accepted gs) :
    Accepted (gs ++ [.flag f]) ↔ .flag f ∉ gs := by
  constructor
  · intro hall hmem
    have hcount := hall.flags f
    have hpos := List.count_pos_iff.mpr hmem
    rw [List.count_append, List.count_singleton_self] at hcount
    omega
  · intro hnew
    refine ⟨fun o => ?_, fun o => ?_, fun f' => ?_⟩
    · rw [texts_concat_flag]
      exact h.once o
    · rw [texts_concat_flag]
      exact h.readable o
    · rw [List.count_append]
      by_cases hf : f' = f
      · subst hf
        simp [List.count_eq_zero_of_not_mem hnew]
      · have := h.flags f'
        simpa [List.count_singleton, Ne.symm hf] using this

theorem put_ofGiven {v : o.Value} (hnew : texts o gs = []) (hv : o.Means text v) :
    (Settings.ofGiven gs).put o v = .ofGiven (gs ++ [.value o text]) := by
  refine Settings.ext_places (fun o' => ?_) fun f => by simp
  rw [value_ofGiven]
  by_cases ho : o' = o
  · subst ho
    rw [Settings.value_put_self, valueOf_of_head?_some (by rw [texts_concat_self, hnew]; rfl) hv]
  · rw [Settings.value_put_of_ne v ho, value_ofGiven, valueOf_congr (texts_concat_of_ne ho)]

theorem lift_ofGiven : (Settings.ofGiven gs).lift f = .ofGiven (gs ++ [.flag f]) := by
  refine Settings.ext_places (fun o => ?_) fun f' => ?_
  · rw [Settings.value_lift, value_ofGiven, value_ofGiven, valueOf_congr texts_concat_flag]
  · by_cases hf : f' = f
    · subst hf
      simp
    · rw [Settings.flag_lift_of_ne hf]
      simp [hf]

/-- One more option with a value. -/
theorem give_ofGiven (h : Accepted gs) :
    (Settings.ofGiven gs).give o text = .ok s ↔
      Accepted (gs ++ [.value o text]) ∧ s = .ofGiven (gs ++ [.value o text]) := by
  rw [Settings.give_eq_ok_iff, value_ofGiven, h.valueOf_eq_none_iff, h.concat_value_iff]
  constructor
  · rintro ⟨hnew, v, hv, rfl⟩
    exact ⟨⟨hnew, v, hv⟩, put_ofGiven hnew hv⟩
  · rintro ⟨⟨hnew, v, hv⟩, rfl⟩
    exact ⟨hnew, v, hv, (put_ofGiven hnew hv).symm⟩

/-- One more flag. -/
theorem raise_ofGiven (h : Accepted gs) :
    (Settings.ofGiven gs).raise f = .ok s ↔
      Accepted (gs ++ [.flag f]) ∧ s = .ofGiven (gs ++ [.flag f]) := by
  rw [Settings.raise_eq_ok_iff, flag_ofGiven, decide_eq_false_iff_not, h.concat_flag_iff,
    lift_ofGiven]

theorem accepted_nil : Accepted [] where
  once _ := Nat.zero_le 1
  readable _ _ h := nomatch h
  flags _ := Nat.zero_le 1

/-- The options of a side are taken one after the other, and leave what they say. -/
theorem foldlM_apply :
    gs.foldlM apply {} = .ok s ↔ Accepted gs ∧ s = .ofGiven gs := by
  induction gs using List.reverseRecOn generalizing s with
  | nil => exact ⟨fun h => ⟨accepted_nil, (Except.ok.inj h).symm⟩, fun h => congrArg _ h.2.symm⟩
  | append_singleton gs g ih =>
    have happly (h : Accepted gs) : g.apply (.ofGiven gs) = .ok s ↔
        Accepted (gs ++ [g]) ∧ s = .ofGiven (gs ++ [g]) := by
      cases g with
      | value o text => exact give_ofGiven h
      | flag f => exact raise_ofGiven h
    rw [List.foldlM_append, bind_eq_ok_iff]
    simp only [List.foldlM_cons, List.foldlM_nil, bind_pure]
    constructor
    · rintro ⟨t, ht, hg⟩
      obtain ⟨h, rfl⟩ := ih.mp ht
      exact (happly h).mp hg
    · intro h
      exact ⟨_, ih.mpr ⟨h.1.of_append, rfl⟩, (happly h.1.of_append).mpr h⟩

theorem Accepted.perm (h : Accepted gs) (hp : gs.Perm gs') : Accepted gs' where
  once o := by
    rw [← (texts_perm hp).length_eq]
    exact h.once o
  readable o text htext := h.readable o text ((texts_perm hp).mem_iff.mpr htext)
  flags o := by
    rw [← hp.count_eq]
    exact h.flags o

theorem accepted_perm_iff (hp : gs.Perm gs') : Accepted gs ↔ Accepted gs' :=
  ⟨fun h => h.perm hp, fun h => h.perm hp.symm⟩

theorem Accepted.ofGiven_perm (h : Accepted gs) (hp : gs.Perm gs') :
    Settings.ofGiven gs = .ofGiven gs' := by
  refine Settings.ext_places (fun o => ?_) fun f => ?_
  · rw [value_ofGiven, value_ofGiven]
    refine valueOf_congr ?_
    have htexts := texts_perm (o := o) hp
    -- A list with at most one element has no other order.
    match hgs : texts o gs, h.once o with
    | [], _ => exact (List.nil_perm.mp (hgs ▸ htexts)).symm
    | [text], _ => exact (List.singleton_perm.mp (hgs ▸ htexts))
  · rw [flag_ofGiven, flag_ofGiven, decide_eq_decide]
    exact hp.mem_iff

/-- No other option is the one of `g`. -/
def Alone (g : Given) (gs : List Given) : Prop := ∀ g' ∈ gs, g'.switch ≠ g.switch

instance (g : Given) (gs : List Given) : Decidable (g.Alone gs) :=
  inferInstanceAs (Decidable (∀ g' ∈ gs, g'.switch ≠ g.switch))

theorem Alone.texts_eq_nil (h : g.Alone gs) (ht : text? o g = some text) : texts o gs = [] := by
  cases g with
  | flag f => cases ht
  | value o' text' =>
    have ho : o' = o := by
      by_contra hne
      simp [text?, hne] at ht
    subst ho
    refine List.filterMap_eq_nil_iff.mpr fun g' hg' => ?_
    have hne := h g' hg'
    cases g' with
    | flag f => rfl
    | value o'' text' => exact if_neg fun heq => hne (congrArg Switch.value heq)

theorem texts_cons_of_none (h : text? o g = none) : texts o (g :: gs) = texts o gs :=
  List.filterMap_cons_none h

theorem texts_cons_of_some (h : text? o g = some text) : texts o (g :: gs) = text :: texts o gs :=
  List.filterMap_cons_some h

theorem Alone.accepted_cons_iff (h : g.Alone gs) :
    Accepted (g :: gs) ↔ Accepted [g] ∧ Accepted gs := by
  constructor
  · intro hall
    have hback : Accepted (gs ++ [g]) := hall.perm (List.perm_append_singleton g gs).symm
    have hfront : Accepted ([g] ++ gs) := hall
    exact ⟨hfront.of_append, hback.of_append⟩
  · rintro ⟨hg, hgs⟩
    refine (accepted_perm_iff (List.perm_append_singleton g gs)).mp ?_
    cases g with
    | value o text =>
      have hnew := h.texts_eq_nil (if_pos rfl : text? o (.value o text) = some text)
      exact hgs.concat_value_iff.mpr ⟨hnew, hg.readable o text (by simp [texts, text?])⟩
    | flag f => exact hgs.concat_flag_iff.mpr fun hmem => h _ hmem rfl

/-- An option that is given once may be given on either side. -/
theorem Alone.within_eq {inner outer : List Given} (hinner : g.Alone inner)
    (houter : g.Alone outer) :
    (Settings.ofGiven (g :: inner)).within (.ofGiven outer) =
      (Settings.ofGiven inner).within (.ofGiven (g :: outer)) := by
  refine Settings.ext_places (fun o => ?_) fun f => ?_
  · simp only [Settings.value_within, value_ofGiven]
    cases ht : text? o g with
    | none =>
      rw [valueOf_congr (texts_cons_of_none ht), valueOf_congr (texts_cons_of_none ht)]
    | some text =>
      simp only [valueOf, texts_cons_of_some ht, hinner.texts_eq_nil ht, houter.texts_eq_nil ht,
        List.head?_nil, Option.bind_none, Option.or_none, Option.none_or]
  · simp only [Settings.flag_within, flag_ofGiven, List.mem_cons, ← Bool.decide_or,
      decide_eq_decide]
    rw [or_assoc, or_left_comm]

end

end Given

end Lineage.CommandLine
