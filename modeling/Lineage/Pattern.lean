/-!
# Patterns

Regular expressions whose choices are in order: of two alternatives the first is preferred, and a
repetition prefers either to go on or to stop. A match may begin anywhere, but earlier beginnings
are preferred. Matching reads a text once and follows all ways through the pattern at once, the
preferred ones first. A way that is complete rules out all ways after it and all later beginnings.
What counts is whether a way is complete at the end of the text, so `ab` does not fit `a|ab`: after
`a` the first alternative is complete and the second is given up.

Beginnings are places between bytes. Inside a character no set can be read on, but a way that needs
no character can be complete there. A set of characters is a term, so two sets with the same members
may differ.
-/

namespace Lineage

inductive CharSet where
  | none
  | range (first last : Char)
  | union (a b : CharSet)
  | inter (a b : CharSet)
  | diff (a b : CharSet)
  | symmDiff (a b : CharSet)
  | compl (a : CharSet)
  /-- The members of `a` and the ASCII letters that differ from a member by case alone. -/
  | anyCase (a : CharSet)
  deriving DecidableEq

namespace CharSet

def contains : CharSet → Char → Bool
  | none, _ => false
  | range first last, c => first ≤ c && c ≤ last
  | union a b, c => a.contains c || b.contains c
  | inter a b, c => a.contains c && b.contains c
  | diff a b, c => a.contains c && !b.contains c
  | symmDiff a b, c => a.contains c != b.contains c
  | compl a, c => !a.contains c
  | anyCase a, c => a.contains c || a.contains c.toLower || a.contains c.toUpper

def one (c : Char) : CharSet := range c c

def ofRanges (rs : List (Char × Char)) : CharSet :=
  rs.foldr (fun r s => union (range r.1 r.2) s) none

def all : CharSet := compl none

def digits : CharSet := range '0' '9'

def spaces : CharSet := ofRanges [('\t', '\r'), (' ', ' ')]

def word : CharSet := ofRanges [('0', '9'), ('A', 'Z'), ('_', '_'), ('a', 'z')]

def named : List (String × CharSet) := [
  ("alnum", ofRanges [('0', '9'), ('A', 'Z'), ('a', 'z')]),
  ("alpha", ofRanges [('A', 'Z'), ('a', 'z')]),
  ("ascii", range '\x00' '\x7f'),
  ("blank", ofRanges [('\t', '\t'), (' ', ' ')]),
  ("cntrl", ofRanges [('\x00', '\x1f'), ('\x7f', '\x7f')]),
  ("digit", digits),
  ("graph", range '!' '~'),
  ("lower", range 'a' 'z'),
  ("print", range ' ' '~'),
  ("punct", ofRanges [('!', '/'), (':', '@'), ('[', '\x60'), ('\x7b', '~')]),
  ("space", spaces),
  ("upper", range 'A' 'Z'),
  ("word", word),
  ("xdigit", ofRanges [('0', '9'), ('A', 'F'), ('a', 'f')])]

end CharSet

/-- A condition on the place between two characters. -/
inductive Look where
  | start
  | finish
  | lineStart
  | lineFinish
  | anyLineStart
  | anyLineFinish
  | wordEdge
  | noWordEdge
  | wordStart
  | wordFinish
  deriving DecidableEq

namespace Look

def isWord (c : Option Char) : Bool := c.any CharSet.word.contains

/-- Does the condition hold between two characters? None stands for an end of the text. -/
def holds (before after : Option Char) : Look → Bool
  | start => before.isNone
  | finish => after.isNone
  | lineStart => before.isNone || before == some '\n'
  | lineFinish => after.isNone || after == some '\n'
  | anyLineStart =>
    before.isNone || before == some '\n' || (before == some '\r' && after != some '\n')
  | anyLineFinish =>
    after.isNone || after == some '\r' || (after == some '\n' && before != some '\r')
  | wordEdge => isWord before != isWord after
  | noWordEdge => isWord before == isWord after
  | wordStart => !isWord before && isWord after
  | wordFinish => isWord before && !isWord after

def isAboutWords : Look → Bool
  | wordEdge | noWordEdge | wordStart | wordFinish => true
  | _ => false

end Look

inductive Pattern where
  | empty
  | char (set : CharSet)
  | look (l : Look)
  | seq (a b : Pattern)
  | alt (a b : Pattern)
  /-- A greedy one prefers `a`, another one nothing. -/
  | optional (greedy : Bool) (a : Pattern)
  | plus (greedy : Bool) (a : Pattern)
  deriving DecidableEq

namespace Pattern

def star (greedy : Bool) (a : Pattern) : Pattern := optional greedy (plus greedy a)

def size : Pattern → Nat
  | empty | char _ | look _ => 1
  | seq a b | alt a b => a.size + b.size + 1
  | optional _ a | plus _ a => a.size + 1

/-! ## Ways through a pattern -/

/-- What a way has still to do. -/
inductive Task where
  | once (a : Pattern)
  | again (greedy : Bool) (a : Pattern)
  deriving DecidableEq

/-- The tasks of a way, the next one first. It is complete if there is none. -/
abbrev Way := List Task

def preferring (greedy : Bool) (more stop : Way) : List Way :=
  if greedy then [more, stop] else [stop, more]

def branches (before after : Option Char) : Way → List Way
  | [] => []
  | .once empty :: r => [r]
  | .once (char _) :: _ => []
  | .once (look l) :: r => if l.holds before after then [r] else []
  | .once (seq a b) :: r => [.once a :: .once b :: r]
  | .once (alt a b) :: r => [.once a :: r, .once b :: r]
  | .once (optional greedy a) :: r => preferring greedy (.once a :: r) r
  | .once (plus greedy a) :: r => [.once a :: .again greedy a :: r]
  | .again greedy a :: r => preferring greedy (.once a :: .again greedy a :: r) r

/-- All ways that the ways `todo` lead to between two characters, behind those in `seen`; the latest
one comes first. A way that has been met before is not followed again. -/
def explore (before after : Option Char) : Nat → List Way → List Way → List Way
  | 0, seen, _ => seen
  | _ + 1, seen, [] => seen
  | fuel + 1, seen, way :: todo =>
    if seen.contains way then explore before after fuel seen todo
    else explore before after fuel (way :: seen) (branches before after way ++ todo)

def advance (c : Char) : Way → Option Way
  | .once (char set) :: r => if set.contains c then some r else none
  | _ => none

/-- The steps that suffice to explore: a pattern has at most two ways for each of its parts and the
complete one, each of them leads to at most two, and a new beginning may be among the first. -/
def explorationSteps (p : Pattern) : Nat := 6 * p.size + 4

def reached (p : Pattern) (before after : Option Char) (ways : List Way) : List Way :=
  (explore before after p.explorationSteps [] ways).reverse

/-- Is a way complete that begins inside the character `c`? -/
def completesInside (p : Pattern) (c : Char) : Bool :=
  1 < c.utf8Size && (p.reached (some c) (some c) [[.once p]]).contains []

def beginnings (p : Pattern) (beginning : Bool) : List Way := if beginning then [[.once p]] else []

/-- Follows the ways through the rest of a text. New ones begin as long as none was complete. -/
def follow (p : Pattern) (beginning : Bool) (before : Option Char) (ways : List Way) :
    List Char → Bool
  | [] => (p.reached before none (ways ++ p.beginnings beginning)).contains []
  | c :: cs =>
    let met := p.reached before (some c) (ways ++ p.beginnings beginning)
    let alive := met.takeWhile (!·.isEmpty)
    p.follow (beginning && !met.contains [] && !p.completesInside c) (some c)
      (alive.filterMap (advance c)) cs

/-- Does the preferred match end where the text ends? -/
def fits (p : Pattern) (text : String) : Bool := p.follow true none [] text.toList

/-- The first alternative is complete after the first character. -/
example : (alt (char (.one 'a')) (seq (char (.one 'a')) (char (.one 'b')))).fits "ab" = false := by
  decide

example : (star true (char (.range 'a' 'b'))).fits "abba" = true := by decide

example : (char (.one 'b')).fits "ab" = true := by decide

example : (char (.one 'b')).fits "bb" = false := by decide

example : (star false (char .all)).fits "a" = false := by decide

end Pattern

end Lineage
