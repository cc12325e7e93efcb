import Lineage.Pattern
import Lineage.Pattern.Bracket
import Lineage.Text.Characters

/-!
# Reading patterns

A pattern is read from left to right. Flags that are set in a group hold up to its end, also in the
alternatives behind them. There is no look-around and no counting of repetitions.

A piece of a pattern is kept as its alternatives and each of them as its parts, so groups that only
hold things together leave no trace. If all alternatives begin with the same parts, these are read
once, before the choice. This matters for what is preferred: in `.*a|.*b` the choice comes after the
repetition, so `ab` fits although its first character completes the first alternative.
-/

namespace Lineage.Pattern

structure Part where
  pattern : Pattern
  /-- It holds a group that captures, so no other part is the same. -/
  captures : Bool := false
  deriving DecidableEq

namespace Part

def isLiteral (p : Part) : Bool :=
  match p.pattern with
  | .char (.range first last) => first == last
  | _ => false

def inOrder : List Part → Pattern
  | [] => .empty
  | [p] => p.pattern
  | p :: ps => .seq p.pattern (inOrder ps)

def eitherOf : List (List Part) → Pattern
  | [] => .empty
  | [branch] => inOrder branch
  | branch :: branches => .alt (inOrder branch) (eitherOf branches)

def choice (branches : List (List Part)) : Part :=
  ⟨eitherOf branches, branches.any fun branch => branch.any captures⟩

/-- The units of which alternatives can have the first ones in common: neighbours that stand for one
character each are one unit. -/
def units (parts : List Part) : List (List Part) :=
  parts.splitBy fun p q => p.isLiteral && q.isLiteral

def sharedStart (xs ys : List (List Part)) : List (List Part) :=
  ((xs.zip ys).takeWhile fun (x, y) => x == y && !x.any captures).map Prod.fst

/-- Alternatives that all have several units, with the first ones in common, as one sequence. -/
def factor? (branches : List (List Part)) : Option (List Part) :=
  let sequences := branches.map units
  match sequences with
  | first :: second :: others =>
    let start := (second :: others).foldl sharedStart first
    if start.isEmpty || sequences.any (·.length < 2) then none
    else
      let rests := sequences.map fun units => (units.drop start.length).flatten
      some (start.flatten ++ [choice rests])
  | _ => none

end Part

/-- A piece of a pattern with the number of levels that it has. -/
structure Piece where
  branches : List (List Part)
  depth : Nat := 0
  /-- The place where flags are set cannot be repeated. -/
  repeatable : Bool := true

namespace Piece

def pattern (p : Piece) : Pattern := Part.eitherOf p.branches

def one (pattern : Pattern) (depth : Nat) : Piece := ⟨[[⟨pattern, false⟩]], depth, true⟩

def parts (p : Piece) : List Part :=
  match p.branches with
  | [] => []
  | [parts] => parts
  | branches => [Part.choice branches]

def asPart (p : Piece) : Part := Part.choice p.branches

def above (pieces : List Piece) : Nat := 1 + (pieces.map depth).foldl max 0

/-- Items one after the other, of which the latest comes first. -/
def ofItems : List Piece → Piece
  | [] => ⟨[[]], 0, true⟩
  | [item] => item
  | items => ⟨[items.reverse.flatMap parts], above items, true⟩

def ofBranches : List Piece → Piece
  | [] => ⟨[[]], 0, true⟩
  | [branch] => branch
  | pieces =>
    let branches := pieces.reverse.flatMap branches
    ⟨((Part.factor? branches).map ([·])).getD branches, above pieces, true⟩

def repeated (make : Pattern → Pattern) (p : Piece) : Piece :=
  ⟨[[{ p.asPart with pattern := make p.pattern }]], p.depth + 1, true⟩

def grouped (captures : Bool) (p : Piece) : Piece :=
  ⟨if captures then [[⟨p.pattern, true⟩]] else p.branches, p.depth + 1, true⟩

end Piece

/-! ## Reading -/

inductive ReadFault where
  | malformed
  /-- Edges of words are asked for where characters of every script are meant. -/
  | wordsOfEveryScript
  deriving DecidableEq

def ReadFault.message : ReadFault → String
  | malformed => "error building NFA"
  | wordsOfEveryScript =>
    "unsupported regex feature for DFAs: cannot build DFAs for regexes with Unicode word " ++
      "boundaries; switch to ASCII word boundaries, or heuristically enable Unicode word " ++
      "boundaries or use a different regex engine"

/-- What has been read of a group, the latest first. -/
structure Group where
  branches : List Piece := []
  items : List Piece := []

namespace Group

def add (g : Group) (piece : Piece) : Group := { g with items := piece :: g.items }

def divide (g : Group) : Group := ⟨Piece.ofItems g.items :: g.branches, []⟩

def close (g : Group) : Piece := Piece.ofBranches g.divide.branches

end Group

/-- A group that has not ended yet, as it was where a group in it begins. -/
structure Enclosing where
  group : Group
  flags : Flags
  captures : Bool

structure Reading where
  flags : Flags := {}
  group : Group := {}
  outer : List Enclosing := []
  names : List String := []
  /-- Edges of words of every script have been met. -/
  needsWords : Bool := false

namespace Reading

def add (r : Reading) (piece : Piece) : Reading := { r with group := r.group.add piece }

def addSet (r : Reading) (s : CharSet) : Reading := r.add (.one (.char s) 0)

def addLook (r : Reading) (l : Look) : Reading :=
  { r.add (.one (.look l) 0) with
    needsWords := r.needsWords || (l.isAboutWords && r.flags.everyScript) }

def push (r : Reading) (captures : Bool) (flags : Flags) : Reading :=
  { r with flags, group := {}, outer := ⟨r.group, r.flags, captures⟩ :: r.outer }

def pop? (r : Reading) : Option Reading :=
  match r.outer with
  | [] => none
  | ⟨group, flags, captures⟩ :: outer =>
    some { r with flags, outer, group := group.add (r.group.close.grouped captures) }

/-- Repeats the latest item. A question mark behind the sign turns the preference around. -/
def repeat? (r : Reading) (make : Bool → Pattern → Pattern) (cs : List Char) :
    Option (Reading × List Char) :=
  match r.group.items with
  | [] => none
  | item :: items =>
    if !item.repeatable then none
    else
      let (turned, rest) := match cs with
        | '?' :: rest => (true, rest)
        | _ => (false, cs)
      some ({ r with group.items := item.repeated (make (turned == r.flags.lazy)) :: items }, rest)

def name? (cs : List Char) : Option (String × List Char) :=
  let name := cs.takeWhile (· ≠ '>')
  match name, cs.drop name.length with
  | c :: more, '>' :: rest =>
    if (c = '_' || Text.isAlphabetic c) &&
        more.all fun c => c = '_' || c = '.' || c = '[' || c = ']' || Text.isAlphanumeric c
    then some (String.ofList name, rest)
    else none
  | _, _ => none

/-- Reads flags up to the colon or the bracket that ends them, which is given back. The letters
before are in `seen`; a hyphen among them switches off what comes after it. -/
def flags? (f : Flags) (seen : List Char) : List Char → Option ((Flags × Char) × List Char)
  | [] => none
  | c :: cs =>
    if c = ':' || c = ')' then
      if seen.head? = some '-' then none
      else if seen.isEmpty && c = ')' then none
      else some ((f, c), cs)
    else if seen.contains c then none
    else if c = '-' then flags? f (c :: seen) cs
    else match f.switch (!seen.contains '-') c with
      | some f => flags? f (c :: seen) cs
      | none => none

def pushNamed? (r : Reading) (cs : List Char) : Option (Reading × List Char) := do
  let (name, rest) ← name? cs
  if r.names.contains name then none
  else return ({ r.push true r.flags with names := name :: r.names }, rest)

def open? (r : Reading) (cs : List Char) : Option (Reading × List Char) :=
  match r.flags.skip cs with
  | '?' :: '=' :: _ | '?' :: '!' :: _ | '?' :: '<' :: '=' :: _ | '?' :: '<' :: '!' :: _ => none
  | '?' :: 'P' :: '<' :: rest | '?' :: '<' :: rest => r.pushNamed? rest
  | '?' :: rest =>
    match flags? r.flags [] rest with
    | some ((flags, ':'), rest) => some (r.push false flags, rest)
    | some ((flags, _), rest) => some ({ r.add ⟨[[]], 0, false⟩ with flags }, rest)
    | none => none
  | rest => some (r.push true r.flags, rest)

def escape? (r : Reading) (cs : List Char) : Option (Reading × List Char) := do
  let (e, rest) ← Escape.read r.flags cs
  match e with
  | .literal c asByte => return (r.addSet (← r.flags.literal? asByte c), rest)
  | .set s => return (r.addSet s, rest)
  | .look l => return (r.addLook l, rest)

/-- Reads from the character `c` on, where blanks do not matter. -/
def step? (r : Reading) (c : Char) (cs : List Char) : Option (Reading × List Char) :=
  match c with
  | '(' => r.open? cs
  | ')' => r.pop?.map (·, cs)
  | '|' => some ({ r with group := r.group.divide }, cs)
  | '[' => (Bracket.ofChars? r.flags cs).map fun (s, rest) =>
      (r.add (.one (.char s.set) s.depth), rest)
  | '?' => r.repeat? .optional cs
  | '*' => r.repeat? .star cs
  | '+' => r.repeat? .plus cs
  | '\x7b' => none
  | '\\' => r.escape? cs
  | '.' => r.flags.dot?.map fun s => (r.addSet s, cs)
  | '^' => some (r.addLook r.flags.lineStart, cs)
  | '$' => some (r.addLook r.flags.lineFinish, cs)
  | c => (r.flags.literal? false c).map fun s => (r.addSet s, cs)

def run (r : Reading) : (fuel : Nat) → List Char → Option Reading
  | 0, cs => if cs.isEmpty then some r else none
  | fuel + 1, cs =>
    match r.flags.skip cs with
    | [] => some r
    | c :: rest => do
      let (r, rest) ← r.step? c rest
      r.run fuel rest

end Reading

def depthLimit : Nat := 250

def ofText (s : String) : Except ReadFault Pattern :=
  let cs := s.toList
  match ({} : Reading).run cs.length cs with
  | none => .error .malformed
  | some r =>
    let piece := r.group.close
    if !r.outer.isEmpty || depthLimit < piece.depth then .error .malformed
    else if r.needsWords then .error .wordsOfEveryScript
    else .ok piece.pattern

example : (ofText "a|b+?").toOption =
    some (.alt (.char (.one 'a')) (.plus false (.char (.one 'b')))) := by decide

/-- The choice comes after what both alternatives begin with. -/
example : (ofText ".*a|.*b").toOption.map (·.fits "ab") = some true := by decide +kernel

/-- Groups that capture differ. -/
example : (ofText "(.*)a|(.*)b").toOption.map (·.fits "ab") = some false := by decide +kernel

example : (ofText "(?i)a").toOption = none := by decide

end Lineage.Pattern
