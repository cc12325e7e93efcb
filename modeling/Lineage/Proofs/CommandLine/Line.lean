import Mathlib.Data.List.TakeWhile
import Mathlib.Tactic.MkIffOfInductiveProp
import Lineage.Proofs.CommandLine.Settings

/-!
# Command lines by their grammar

A line has a command, items before and after it, and maybe two dashes with words behind them. An
item is an option in one of its spellings, with the text that is given for it, or a word of the
command. `Line.Fits` says which lines are requests, `Line.words` how they are written, and
`Line.request?` what they ask for.
-/

namespace Lineage.CommandLine

/-- A name that can stand before an equals sign. -/
def IsName (name : String) : Prop := name ≠ "" ∧ '=' ∉ name.toList

instance (name : String) : Decidable (IsName name) := inferInstanceAs (Decidable (_ ∧ _))

/-- A word that is no option, which begins with no dash unless it is nothing but one. -/
def IsPlain (word : String) : Prop := word.toList.head? ≠ some '-' ∨ word = "-"

instance (word : String) : Decidable (IsPlain word) := inferInstanceAs (Decidable (_ ∨ _))

namespace Word

theorem splitAtEquals_of_not_mem {cs : List Char} (h : '=' ∉ cs) :
    splitAtEquals cs = (String.ofList cs, none) := by
  have hall : cs.dropWhile (· ≠ '=') = [] := by
    rw [List.dropWhile_eq_nil_iff]
    intro c hc
    exact decide_eq_true (ne_of_mem_of_not_mem hc h)
  unfold splitAtEquals
  rw [hall]

theorem splitAtEquals_append {cs : List Char} (h : '=' ∉ cs) (text : List Char) :
    splitAtEquals (cs ++ '=' :: text) = (String.ofList cs, some (String.ofList text)) := by
  have hpos : ∀ c ∈ cs, decide (c ≠ '=') = true :=
    fun c hc => decide_eq_true (ne_of_mem_of_not_mem hc h)
  unfold splitAtEquals
  rw [List.dropWhile_append_of_pos hpos, List.takeWhile_append_of_pos hpos]
  simp

/-- A text is made of what it is split into. -/
theorem eq_append_splitAtEquals (cs : List Char) :
    cs = (splitAtEquals cs).1.toList ++
      ((splitAtEquals cs).2.map fun text => '=' :: text.toList).getD [] := by
  have hwhole := List.takeWhile_append_dropWhile (p := fun c => decide (c ≠ '=')) (l := cs)
  have hhead := List.head?_dropWhile_not (fun c => decide (c ≠ '=')) cs
  unfold splitAtEquals
  split
  · simp
  · next c rest hdrop =>
    rw [hdrop] at hhead hwhole
    have hc : c = '=' := of_not_not (of_decide_eq_false hhead)
    rw [hc] at hwhole
    simpa using hwhole.symm

section
variable {s name text : String} {cs : List Char} {c : Char}

theorem ofString_of_dashes (h : s.toList = '-' :: '-' :: c :: cs) :
    ofString s = .long (splitAtEquals (c :: cs)).1 (splitAtEquals (c :: cs)).2 := by
  unfold ofString
  rw [h]
  rfl

theorem ofString_long (h : IsName name) : ofString ("--" ++ name) = .long name none := by
  obtain ⟨c, cs, hcs⟩ := List.exists_cons_of_ne_nil (mt String.toList_eq_nil_iff.mp h.1)
  have hlist : ("--" ++ name).toList = '-' :: '-' :: c :: cs := by simp [hcs]
  rw [ofString_of_dashes hlist, ← hcs, splitAtEquals_of_not_mem h.2, String.ofList_toList]

theorem ofString_equals (h : IsName name) :
    ofString ("--" ++ name ++ "=" ++ text) = .long name (some text) := by
  obtain ⟨c, cs, hcs⟩ := List.exists_cons_of_ne_nil (mt String.toList_eq_nil_iff.mp h.1)
  have hlist : ("--" ++ name ++ "=" ++ text).toList =
      '-' :: '-' :: c :: (cs ++ '=' :: text.toList) := by simp [hcs]
  rw [ofString_of_dashes hlist, ← List.cons_append, ← hcs, splitAtEquals_append h.2,
    String.ofList_toList, String.ofList_toList]

theorem ofString_short (hc : c ≠ '-') :
    ofString (String.ofList ('-' :: c :: cs)) = .short (c :: cs) := by
  unfold ofString
  rw [String.toList_ofList]
  split <;> simp_all

/-- How a word is written. -/
def text? : Word → Option String
  | divider => some "--"
  | long name text => some ("--" ++ name ++ (text.map ("=" ++ ·)).getD "")
  | short cs => some (String.ofList ('-' :: cs))
  | plain => none

/-- Every word but a plain one tells how it is written. -/
theorem eq_of_ofString {w : Word} (h : ofString s = w) : ∀ text ∈ w.text?, s = text := by
  subst h
  rintro text ht
  rw [← String.toList_inj]
  unfold ofString at ht
  split at ht
  · next hs =>
    cases ht
    rw [hs]
    rfl
  · next cs _ hs =>
    cases ht
    have hsplit := eq_append_splitAtEquals cs
    rw [hs]
    generalize splitAtEquals cs = parts at hsplit
    obtain ⟨name, _ | text⟩ := parts <;> simpa using hsplit
  · next hs =>
    cases ht
    simp [hs]
  · cases ht

theorem ofString_ne_short_nil : ofString s ≠ .short [] := by
  unfold ofString
  split <;> simp

theorem ofString_eq_plain_iff : ofString s = .plain ↔ IsPlain s := by
  unfold ofString IsPlain
  rw [← String.toList_inj]
  match s.toList with
  | [] => simp
  | [c] => by_cases hc : c = '-' <;> simp_all
  | c :: d :: cs =>
    by_cases hc : c = '-'
    · subst hc
      split <;> simp_all
    · simp [hc]

end

end Word

def Command.name : Command → String
  | chain => "chain"
  | field => "field"
  | method => "method"
  | fieldTypes => "field-type"
  | complete => "complete"

section
variable {side : Side} {word : String} {c : Char}

theorem Turn.ofName?_eq_command_iff {command : Command} :
    ofName? word = some (.command command) ↔ word = command.name := by
  constructor
  · intro h
    unfold ofName? at h
    split at h <;> cases h <;> rfl
  · rintro rfl
    cases command <;> rfl

theorem Turn.plain_of_ofName? {turn : Turn} (h : ofName? word = some turn) :
    Word.ofString word = .plain := by
  unfold ofName? at h
  split at h
  case h_7 => cases h
  all_goals decide

/-- No letter stands for an option without value. -/
theorem Side.shortSwitch?_ne_flag {o : FlagOption} : side.shortSwitch? c ≠ some (.flag o) := by
  unfold shortSwitch?
  split <;> simp

end

/-! ## Options by their names -/

namespace Switch

/-- The long names of an option. -/
def names : Switch → List String
  | value .config => ["config"]
  | value .index => ["index"]
  | value .scope => ["scope"]
  | value .limit => ["maxChainDepth", "max-chain-depth"]
  | value .format => ["format"]
  | value .typed => ["prefix"]
  | flag .ignoreCase => ["ignoreCase", "ignore-case"]
  | flag .stats => ["stats"]
  | flag .asField => ["asField", "as-field"]
  | help => ["help"]
  | version => ["version"]

/-- The letters that stand for an option. -/
def letters : Switch → List Char
  | value .config => ['c']
  | value .index => ['i']
  | help => ['h']
  | version => ['V']
  | _ => []

/-- An option may stand on either side of the command, but for those that belong to completions or
to the program. -/
def StandsOn : Switch → Side → Prop
  | value .typed, side => side = .after .complete
  | flag .asField, side => side = .after .complete
  | version, side => side = .before
  | _, _ => True

instance (o : Switch) (side : Side) : Decidable (o.StandsOn side) := by
  unfold StandsOn
  split <;> infer_instance

def IsCommon (o : Switch) : Prop := ∀ side, o.StandsOn side

end Switch

section
variable {side : Side} {o : Switch}

theorem Side.longSwitch?_eq_some_iff {name : String} :
    side.longSwitch? name = some o ↔ name ∈ o.names ∧ o.StandsOn side := by
  constructor
  · intro h
    rcases Option.or_eq_some_iff.mp h with hcommon | ⟨-, hown⟩
    · unfold commonSwitch? at hcommon
      split at hcommon <;> cases hcommon <;> exact ⟨by decide, trivial⟩
    · unfold ownSwitch? at hown
      split at hown <;> cases hown <;> exact ⟨by decide, rfl⟩
  · rintro ⟨hname, hside⟩
    have hall : ∀ name ∈ o.names, o.StandsOn side → side.longSwitch? name = some o := by
      rcases side with _ | _ | _ <;> rcases o with (_ | _) | (_ | _) | _ | _ <;> decide
    exact hall name hname hside

theorem Side.shortSwitch?_eq_some_iff {c : Char} :
    side.shortSwitch? c = some o ↔ c ∈ o.letters ∧ o.StandsOn side := by
  constructor
  · intro h
    unfold shortSwitch? at h
    split at h <;> cases h
    case h_4 => exact ⟨by decide, rfl⟩
    all_goals exact ⟨by decide, trivial⟩
  · rintro ⟨hc, hside⟩
    unfold Switch.letters at hc
    split at hc
    case h_5 => cases hc
    all_goals obtain rfl := List.mem_singleton.mp hc
    case h_4 =>
      obtain rfl : side = .before := hside
      rfl
    all_goals cases side <;> rfl

theorem Switch.isName_of_mem_names {name : String} (h : name ∈ o.names) : IsName name := by
  have hall : ∀ name ∈ o.names, IsName name := by
    rcases o with (_ | _) | (_ | _) | _ | _ <;> decide
  exact hall name h

theorem Switch.ne_dash_of_mem_letters {c : Char} (h : c ∈ o.letters) : c ≠ '-' := by
  rintro rfl
  rcases o with (_ | _) | (_ | _) | _ | _ <;> exact absurd h (by decide)

end

/-- An option's name as it is written. -/
inductive Name where
  | long (name : String)
  | letter (c : Char)
  deriving DecidableEq

namespace Name

def written : Name → String
  | long name => "--" ++ name
  | letter c => String.ofList ['-', c]

/-- The name is one of the option's. -/
def IsOf (o : Switch) : Name → Prop
  | long name => name ∈ o.names
  | letter c => c ∈ o.letters

instance (o : Switch) : (name : Name) → Decidable (name.IsOf o)
  | .long name => inferInstanceAs (Decidable (name ∈ o.names))
  | .letter c => inferInstanceAs (Decidable (c ∈ o.letters))

end Name

/-! ## Items -/

/-- An option with its text, or a word that belongs to the command. -/
inductive Item where
  | flag (o : FlagOption) (name : String)
  /-- The text stands behind an equals sign. -/
  | equals (o : ValueOption) (name text : String)
  /-- The text stands behind the letter of the option, maybe after an equals sign. -/
  | attached (o : ValueOption) (c : Char) (sign : Bool) (text : String)
  /-- The text is a word of its own. -/
  | apart (o : ValueOption) (name : Name) (text : String)
  | word (w : String)
  deriving DecidableEq

namespace Item

/-- What stands behind the letter of an option. -/
def tail (sign : Bool) (text : String) : List Char :=
  if sign then '=' :: text.toList else text.toList

def words : Item → List String
  | flag _ name => ["--" ++ name]
  | equals _ name text => ["--" ++ name ++ "=" ++ text]
  | attached _ c sign text => [String.ofList ('-' :: c :: tail sign text)]
  | apart _ name text => [name.written, text]
  | word w => [w]

def given? : Item → Option Given
  | flag o _ => some (.flag o)
  | equals o _ text => some (.value o text)
  | attached o _ _ text => some (.value o text)
  | apart o _ text => some (.value o text)
  | word _ => none

def operand? : Item → Option String
  | word w => some w
  | _ => none

/-- The item may stand on this side. A text or word of its own must not look like an option, and
an equals sign behind a letter does not belong to the text. -/
def Fits (side : Side) : Item → Prop
  | flag o name => name ∈ (Switch.flag o).names ∧ (Switch.flag o).StandsOn side
  | equals o name _ => name ∈ (Switch.value o).names ∧ (Switch.value o).StandsOn side
  | attached o c sign text =>
    (c ∈ (Switch.value o).letters ∧ (Switch.value o).StandsOn side) ∧
      (sign = true ∨ text ≠ "" ∧ text.toList.head? ≠ some '=')
  | apart o name text =>
    (name.IsOf (.value o) ∧ (Switch.value o).StandsOn side) ∧ IsPlain text
  | word w => side ≠ .before ∧ IsPlain w

instance (side : Side) (i : Item) : Decidable (i.Fits side) := by
  unfold Fits
  split <;> infer_instance

theorem length_words_pos (i : Item) : 0 < i.words.length := by
  cases i <;> simp [words]

section
variable {sign : Bool} {text : String}

theorem tail_ne_nil (h : sign = true ∨ text ≠ "" ∧ text.toList.head? ≠ some '=') :
    tail sign text ≠ [] := by
  unfold tail
  rcases h with rfl | ⟨htext, -⟩
  · exact List.cons_ne_nil _ _
  · split
    · exact List.cons_ne_nil _ _
    · exact mt String.toList_eq_nil_iff.mp htext

theorem attached_tail (h : sign = true ∨ text ≠ "" ∧ text.toList.head? ≠ some '=') :
    Scan.attached (tail sign text) = text := by
  unfold tail Scan.attached
  rcases sign with _ | _
  · have hhead := (h.resolve_left nofun).2
    split
    · next cs hcs =>
      rw [show text.toList = '=' :: cs from hcs] at hhead
      exact absurd rfl hhead
    · exact String.ofList_toList
  · exact String.ofList_toList

/-- Whatever stands behind a letter is a text, maybe after an equals sign. -/
theorem exists_tail_eq (c : Char) (cs : List Char) : ∃ sign text, tail sign text = c :: cs ∧
    (sign = true ∨ text ≠ "" ∧ text.toList.head? ≠ some '=') := by
  by_cases hc : c = '='
  · exact ⟨true, String.ofList cs, by simp [tail, hc], .inl rfl⟩
  · refine ⟨false, String.ofList (c :: cs), by simp [tail], .inr ⟨?_, by simpa using hc⟩⟩
    rw [ne_eq, ← String.toList_inj]
    simp

end

end Item

/-! ## Lines -/

structure Line where
  before : List Item
  command : Command
  after : List Item
  /-- The words behind two dashes. -/
  plain : Option (List String) := none
  deriving DecidableEq

namespace Line

variable (l : Line)

/-- The words after the command. -/
def rest : List String :=
  l.after.flatMap Item.words ++ (l.plain.map ("--" :: ·)).getD []

def words : List String := l.before.flatMap Item.words ++ l.command.name :: l.rest

/-- The options before the command. -/
def outer : List Given := l.before.filterMap Item.given?

/-- The options after the command. -/
def inner : List Given := l.after.filterMap Item.given?

def operands : List String := l.after.filterMap Item.operand? ++ l.plain.getD []

@[mk_iff]
structure Fits : Prop where
  before : ∀ i ∈ l.before, i.Fits .before
  after : ∀ i ∈ l.after, i.Fits (.after l.command)
  outer : Given.Accepted l.outer
  inner : Given.Accepted l.inner
  arity : l.operands.length = if l.command = .chain ∨ l.command = .complete then 1 else 2

/-- What the line asks for. What stands after the command counts first. -/
def request? : Option Request :=
  (l.command.query? (.ofGiven l.inner) l.operands).map fun query =>
    ⟨(Settings.ofGiven l.inner).within (.ofGiven l.outer), query⟩

end Line

end Lineage.CommandLine
