import Lineage.Pattern
import Lineage.Text.Characters

/-!
# Flags, escapes and sets in brackets

What letters, sets and conditions mean in a pattern depends on its flags. No tables of letters are
at hand: where characters of every script are meant, what would need a table, such as the digits or
the case of a letter, cannot be read. Where bytes are meant, letters and digits are the ASCII ones
and no set may hold more than ASCII characters.

Brackets as in `[^a-z&&[:alpha:]]` hold characters, ranges, named sets and further brackets, which
are united, and operators between such unions, which are applied from left to right. A hyphen at the
start and a closing bracket at the very start stand for themselves.
-/

namespace Lineage.Pattern

structure Flags where
  caseless : Bool := false
  /-- The anchors are about lines and not about the text. -/
  byLine : Bool := false
  dotAll : Bool := false
  lazy : Bool := false
  /-- Characters of every script are meant, not bytes. -/
  everyScript : Bool := true
  anyLineEnd : Bool := false
  spaced : Bool := false
  deriving DecidableEq

namespace Flags

def switch (f : Flags) (on : Bool) : Char → Option Flags
  | 'i' => some { f with caseless := on }
  | 'm' => some { f with byLine := on }
  | 's' => some { f with dotAll := on }
  | 'U' => some { f with lazy := on }
  | 'u' => some { f with everyScript := on }
  | 'R' => some { f with anyLineEnd := on }
  | 'x' => some { f with spaced := on }
  | _ => none

/-- Passes over blanks and over comments, which go from `#` to the end of the line. -/
def dropSpace : (inComment : Bool) → List Char → List Char
  | _, [] => []
  | true, c :: cs => dropSpace (c != '\n') cs
  | false, c :: cs =>
    if Text.isBlank c then dropSpace false cs
    else if c = '#' then dropSpace true cs
    else c :: cs

def skip (f : Flags) (cs : List Char) : List Char :=
  if f.spaced then dropSpace false cs else cs

def isAscii (c : Char) : Bool := c.toNat < 0x80

def folded? (f : Flags) (s : CharSet) : Option CharSet :=
  if !f.caseless then some s
  else if f.everyScript then none
  else some (.anyCase s)

/-- The complement of a set if it is wanted; it never holds ASCII characters only. -/
def negated? (f : Flags) (wanted : Bool) (s : CharSet) : Option CharSet :=
  if !wanted then some s
  else if f.everyScript then some (.compl s)
  else none

def range? (f : Flags) (first last : Char) : Option CharSet :=
  if f.everyScript || (isAscii first && isAscii last) then f.folded? (.range first last) else none

/-- A character that stands for itself; `asByte` if it is given as the number of a byte. -/
def literal? (f : Flags) (asByte : Bool) (c : Char) : Option CharSet :=
  if f.everyScript || isAscii c then f.folded? (.one c)
  else if asByte then none
  else some (.one c)

def named? (f : Flags) (negated : Bool) (s : CharSet) : Option CharSet :=
  (f.folded? s).bind (f.negated? negated)

def class? (f : Flags) (letter : Char) : Option CharSet :=
  if f.everyScript then none
  else match letter with
    | 'd' => some CharSet.digits
    | 's' => some CharSet.spaces
    | 'w' => some CharSet.word
    | _ => none

def dot? (f : Flags) : Option CharSet :=
  if !f.everyScript then none
  else if f.dotAll then some .all
  else if f.anyLineEnd then some (.compl (.union (.one '\n') (.one '\r')))
  else some (.compl (.one '\n'))

def lineStart (f : Flags) : Look :=
  if !f.byLine then .start else if f.anyLineEnd then .anyLineStart else .lineStart

def lineFinish (f : Flags) : Look :=
  if !f.byLine then .finish else if f.anyLineEnd then .anyLineFinish else .lineFinish

end Flags

/-! ## Escapes -/

inductive Escape where
  /-- A character; `asByte` if it is given by two digits. -/
  | literal (c : Char) (asByte : Bool)
  | set (s : CharSet)
  | look (l : Look)

namespace Escape

def hexValue (digits : List Char) : Nat :=
  digits.foldl (fun n c =>
    n * 16 + if c.isDigit then c.toNat - 48 else c.toLower.toNat - 87) 0

def isHexDigit (c : Char) : Bool := c.isDigit || ('a' ≤ c.toLower && c.toLower ≤ 'f')

/-- Reads `count` digits; `read` holds those before, the latest first. -/
def hexDigits (f : Flags) (read : List Char) : (count : Nat) → List Char →
    Option (List Char × List Char)
  | 0, cs => some (read.reverse, cs)
  | count + 1, cs =>
    match f.skip cs with
    | c :: rest => if isHexDigit c then hexDigits f (c :: read) count rest else none
    | [] => none

def byNumber (f : Flags) (count : Nat) (cs : List Char) : Option (Escape × List Char) := do
  let (digits, rest) ← hexDigits f [] count cs
  let n := hexValue digits
  if n.isValidChar then some (.literal (Char.ofNat n) (count == 2), rest) else none

def controls : List (Char × Char) := [
  ('a', '\x07'), ('f', '\x0c'), ('t', '\t'), ('n', '\n'), ('r', '\r'), ('v', '\x0b')]

def looks : List (Char × Look) := [
  ('A', .start), ('z', .finish), ('b', .wordEdge), ('B', .noWordEdge), ('<', .wordStart),
  ('>', .wordFinish)]

/-- Reads what follows a backslash. All ASCII characters that are no letters or digits may stand
for themselves. -/
def read (f : Flags) : List Char → Option (Escape × List Char)
  | [] => none
  | 'x' :: cs => byNumber f 2 cs
  | 'u' :: cs => byNumber f 4 cs
  | 'U' :: cs => byNumber f 8 cs
  | c :: cs =>
    if let some control := controls.lookup c then some (.literal control false, cs)
    else if let some l := looks.lookup c then some (.look l, cs)
    else if c.isAlphanum then (f.class? c).map fun s => (.set s, cs)
    else if Flags.isAscii c then some (.literal c false, cs)
    else none

end Escape

/-! ## Brackets -/

/-- A set with the number of levels that it has. -/
structure NestedSet where
  set : CharSet
  depth : Nat := 0

namespace NestedSet

/-- The union of items, of which the latest comes first. -/
def ofItems : List NestedSet → NestedSet
  | [] => ⟨.none, 0⟩
  | [item] => item
  | items => ⟨items.foldl (fun s item => .union item.set s) .none,
      1 + (items.map depth).foldl max 0⟩

end NestedSet

inductive SetOperator where
  | inter
  | diff
  | symmDiff
  deriving DecidableEq

namespace SetOperator

def apply : SetOperator → CharSet → CharSet → CharSet
  | inter => .inter
  | diff => .diff
  | symmDiff => .symmDiff

def ofChar? : Char → Option SetOperator
  | '&' => some inter
  | '-' => some diff
  | '~' => some symmDiff
  | _ => none

end SetOperator

structure Bracket where
  negated : Bool
  /-- The operator before the current union, with what stands before it. -/
  pending : Option (NestedSet × SetOperator) := none
  items : List NestedSet := []
  /-- There is nothing yet but hyphens. -/
  atStart : Bool := true

namespace Bracket

def add (b : Bracket) (item : NestedSet) : Bracket :=
  { b with items := item :: b.items, atStart := false }

def operand (b : Bracket) : NestedSet :=
  let last := NestedSet.ofItems b.items
  match b.pending with
  | none => last
  | some (first, op) => ⟨op.apply first.set last.set, 1 + max first.depth last.depth⟩

def operate (b : Bracket) (op : SetOperator) : Bracket :=
  { b with pending := some (b.operand, op), items := [], atStart := false }

def close (b : Bracket) (f : Flags) : Option NestedSet :=
  let s := b.operand
  (f.negated? b.negated s.set).map fun set => ⟨set, s.depth + 1⟩

def start (f : Flags) (cs : List Char) : Bracket × List Char :=
  match f.skip cs with
  | '^' :: rest => ({ negated := true }, rest)
  | rest => ({ negated := false }, rest)

/-- A named set such as `[:alpha:]`, behind the opening bracket. -/
def named? : List Char → Option ((Bool × CharSet) × List Char)
  | ':' :: cs =>
    let (negated, cs) := match cs with
      | '^' :: rest => (true, rest)
      | _ => (false, cs)
    let name := cs.takeWhile (· ≠ ':')
    match cs.drop name.length with
    | ':' :: ']' :: rest =>
      (CharSet.named.lookup (String.ofList name)).map fun s => ((negated, s), rest)
    | _ => none
  | _ => none

/-- The character that decides what a hyphen means, where blanks do not count. Of a comment only
the sign is passed over. -/
def peek? (f : Flags) (cs : List Char) : Option Char :=
  if !f.spaced then cs.head?
  else match cs.dropWhile Text.isBlank with
    | [] => cs.head?
    | '#' :: more =>
      match more.dropWhile Text.isBlank with
      | [] => cs.head?
      | c :: _ => some c
    | c :: _ => some c

inductive Item where
  | char (c : Char)
  | set (s : CharSet)

def item? (f : Flags) : List Char → Option (Item × List Char)
  | [] => none
  | '\\' :: cs =>
    match Escape.read f cs with
    | some (.literal c _, rest) => some (.char c, rest)
    | some (.set s, rest) => some (.set s, rest)
    | _ => none
  | c :: cs => some (.char c, cs)

def range? (f : Flags) (cs : List Char) : Option (CharSet × List Char) := do
  let (first, rest) ← item? f cs
  let single : Option CharSet := match first with
    | .char c => f.range? c c
    | .set s => some s
  match f.skip rest with
  | '-' :: more =>
    let next := peek? f more
    if next = some ']' || next = some '-' then return (← single, '-' :: more)
    else
      let (last, rest) ← item? f (f.skip more)
      match first, last with
      | .char a, .char b => if a ≤ b then return (← f.range? a b, rest) else none
      | _, _ => none
  | rest => return (← single, rest)

def extend (f : Flags) (b : Bracket) (cs : List Char) : Option (Bracket × List Char) :=
  let operator := match cs with
    | c :: d :: rest => if c = d then (SetOperator.ofChar? c).map (·, rest) else none
    | _ => none
  match operator with
  | some (op, rest) => some (b.operate op, rest)
  | none => (range? f cs).map fun (s, rest) => (b.add ⟨s, 0⟩, rest)

/-- Reads on in a bracket that lies in others, up to the end of the outermost one. -/
def read (f : Flags) : (fuel : Nat) → Bracket → (outer : List Bracket) → List Char →
    Option (NestedSet × List Char)
  | 0, _, _, _ => none
  | fuel + 1, b, outer, cs => do
    match f.skip cs with
    | [] => none
    | ']' :: rest =>
      if b.atStart && b.items.isEmpty then
        read f fuel (b.add ⟨← f.range? ']' ']', 0⟩) outer rest
      else
        let s ← b.close f
        match outer with
        | [] => return (s, rest)
        | parent :: outer => read f fuel (parent.add s) outer rest
    | '[' :: rest =>
      match named? rest with
      | some ((negated, s), rest) => read f fuel (b.add ⟨← f.named? negated s, 0⟩) outer rest
      | none =>
        let (inner, rest) := start f rest
        read f fuel inner (b :: outer) rest
    | c :: rest =>
      if b.atStart && c == '-' then
        let b := b.add ⟨← f.range? '-' '-', 0⟩
        read f fuel { b with atStart := true } outer rest
      else
        let (b, rest) ← b.extend f (c :: rest)
        read f fuel b outer rest

def ofChars? (f : Flags) (cs : List Char) : Option (NestedSet × List Char) :=
  let (b, rest) := start f cs
  read f (cs.length + 1) b [] rest

end Bracket

end Lineage.Pattern
