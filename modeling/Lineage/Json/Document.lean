import Lineage.Json.Lexeme

/-!
# Documents

A JSON text read as far as it goes. A document is a tree in which the place where the text goes
wrong, if it does, is a part of the tree: a value that is absent or garbled, or a container that
does not end as it should. Readers of a document go through it in the order of the text and so
meet its first problem first, be it a fault of the text or a value of the wrong kind.

The tree is built by an automaton over the tokens with a stack of the open containers. A piece of
text that is no token is one too, so that the automaton can say what it met; it takes the rest of
the text with it.
-/

namespace Lineage.Json

inductive Token where
  | openBracket
  | closeBracket
  | openBrace
  | closeBrace
  | comma
  | colon
  | null
  | bool (b : Bool)
  | number (n : Number)
  | string (s : StringLexeme)
  /-- The beginning of `null`. -/
  | brokenNull (atEnd : Bool)
  | brokenBool (atEnd : Bool)
  | brokenNumber (n : BrokenNumber)
  | junk

namespace Token

def fault : Token → Fault
  | brokenNull true | brokenBool true => .valueCut
  | brokenNull false | brokenBool false => .expectedWord
  | brokenNumber ⟨true⟩ => .valueCut
  | brokenNumber ⟨false⟩ => .invalidNumber
  | _ => .expectedValue

def skipFault : Token → Fault
  | brokenNumber _ => .invalidNumber
  | t => t.fault

end Token

def isBlank (c : Char) : Bool := c = ' ' || c = '\n' || c = '\t' || c = '\r'

/-- Reads the rest of a word, all but its first letter. -/
def lexWord (whole : Token) (broken : Bool → Token) : (expected cs : List Char) → Token × List Char
  | [], cs => (whole, cs)
  | _ :: _, [] => (broken true, [])
  | e :: es, c :: cs => if c = e then lexWord whole broken es cs else (broken false, [])

def lexNumberToken (negative : Bool) (cs : List Char) : Token × List Char :=
  match lexNumber negative cs with
  | .ok (n, rest) => (.number n, rest)
  | .error broken => (.brokenNumber broken, [])

def lexToken (c : Char) (cs : List Char) : Token × List Char :=
  if c = '[' then (.openBracket, cs)
  else if c = ']' then (.closeBracket, cs)
  else if c = '\x7b' then (.openBrace, cs)
  else if c = '\x7d' then (.closeBrace, cs)
  else if c = ',' then (.comma, cs)
  else if c = ':' then (.colon, cs)
  else if c = '"' then
    let (s, rest) := lexString [] cs
    (.string s, rest)
  else if c = 'n' then lexWord .null .brokenNull ['u', 'l', 'l'] cs
  else if c = 't' then lexWord (.bool true) .brokenBool ['r', 'u', 'e'] cs
  else if c = 'f' then lexWord (.bool false) .brokenBool ['a', 'l', 's', 'e'] cs
  else if c = '-' then lexNumberToken true cs
  else if c.isDigit then lexNumberToken false (c :: cs)
  else (.junk, [])

theorem length_lexWord_le (whole : Token) (broken : Bool → Token) (expected cs : List Char) :
    (lexWord whole broken expected cs).2.length ≤ cs.length := by
  fun_induction lexWord whole broken expected cs <;> simp_all
  omega

theorem length_lexNumberToken_le (negative : Bool) (cs : List Char) :
    (lexNumberToken negative cs).2.length ≤ cs.length - 1 := by
  unfold lexNumberToken
  split
  · next h => exact Nat.le_sub_one_of_lt (length_lexNumber_lt h)
  · simp

theorem length_ite_le {p : Prop} [Decidable p] {x y : Token × List Char} {n : Nat}
    (hx : x.2.length ≤ n) (hy : y.2.length ≤ n) : (if p then x else y).2.length ≤ n := by
  split <;> assumption

theorem length_lexToken_le (c : Char) (cs : List Char) :
    (lexToken c cs).2.length ≤ cs.length := by
  unfold lexToken
  iterate 6 refine length_ite_le (Nat.le_refl _) ?_
  refine length_ite_le (length_lexString_le _ _) ?_
  iterate 3 refine length_ite_le (length_lexWord_le _ _ _ _) ?_
  refine length_ite_le (Nat.le_trans (length_lexNumberToken_le _ _) (Nat.sub_le _ _)) ?_
  exact length_ite_le (length_lexNumberToken_le _ _) (Nat.zero_le _)

def lexAll (done : Array Token) (cs : List Char) : Array Token :=
  match cs with
  | [] => done
  | c :: cs =>
    if isBlank c then lexAll done cs
    else
      let next := lexToken c cs
      lexAll (done.push next.1) next.2
  termination_by cs.length
  decreasing_by
    · simp
    · exact Nat.lt_succ_of_le (length_lexToken_le c cs)

def tokens (text : String) : List Token := (lexAll #[] text.toList).toList

/-! ## Documents -/

inductive ArrayEnd where
  | closed
  /-- The text ends where a comma or the end was due. -/
  | cut
  | noComma
  | cutAfterComma
  | trailingComma

inductive ObjectEnd where
  | closed
  | cut
  | noComma
  | cutAfterComma
  | trailingComma
  | badKey (found : Token)

inductive Doc where
  | null
  | bool (b : Bool)
  | number (n : Number)
  | string (s : StringLexeme)
  | array (items : List Doc) (ending : ArrayEnd)
  | object (entries : List (StringLexeme × Doc)) (ending : ObjectEnd)
  /-- The text ends where a value was due. -/
  | absent
  | garbled (found : Token)
  | noColon (atEnd : Bool)

namespace Doc

/-- A container that waits for a value. Its contents are reversed. -/
inductive Frame where
  | array (items : List Doc)
  | object (entries : List (StringLexeme × Doc)) (key : StringLexeme)

/-- What the automaton waits for. -/
inductive Due where
  | value
  | firstItem
  | afterItem (items : List Doc)
  | itemAfterComma (items : List Doc)
  | firstKey
  | colon (entries : List (StringLexeme × Doc)) (key : StringLexeme)
  | afterEntry (entries : List (StringLexeme × Doc))
  | keyAfterComma (entries : List (StringLexeme × Doc))

inductive Next where
  | goOn (due : Due) (frames : List Frame)
  | complete (d : Doc)
  | broken (d : Doc)

def arrayOf (items : List Doc) (ending : ArrayEnd) : Doc := .array items.reverse ending

def objectOf (entries : List (StringLexeme × Doc)) (ending : ObjectEnd) : Doc :=
  .object entries.reverse ending

/-- Hands a complete value to the container that waits for it. -/
def deliver (d : Doc) : List Frame → Next
  | [] => .complete d
  | .array items :: frames => .goOn (.afterItem (d :: items)) frames
  | .object entries key :: frames => .goOn (.afterEntry ((key, d) :: entries)) frames

/-- The whole document, if nothing can follow `d` any more. -/
def abandon (d : Doc) : List Frame → Doc
  | [] => d
  | .array items :: frames => abandon (arrayOf (d :: items) .cut) frames
  | .object entries key :: frames => abandon (objectOf ((key, d) :: entries) .cut) frames

def beginValue (frames : List Frame) : Token → Next
  | .null => deliver .null frames
  | .bool b => deliver (.bool b) frames
  | .number n => deliver (.number n) frames
  | .string s =>
    match s.ending with
    | .closed => deliver (.string s) frames
    | _ => .broken (abandon (.string s) frames)
  | .openBracket => .goOn .firstItem frames
  | .openBrace => .goOn .firstKey frames
  | t => .broken (abandon (.garbled t) frames)

def step (due : Due) (frames : List Frame) (t : Token) : Next :=
  match due, t with
  | .value, t => beginValue frames t
  | .firstItem, .closeBracket => deliver (.array [] .closed) frames
  | .firstItem, t => beginValue (.array [] :: frames) t
  | .afterItem items, .closeBracket => deliver (arrayOf items .closed) frames
  | .afterItem items, .comma => .goOn (.itemAfterComma items) frames
  | .afterItem items, _ => .broken (abandon (arrayOf items .noComma) frames)
  | .itemAfterComma items, .closeBracket => .broken (abandon (arrayOf items .trailingComma) frames)
  | .itemAfterComma items, t => beginValue (.array items :: frames) t
  | .firstKey, .string key => .goOn (.colon [] key) frames
  | .firstKey, .closeBrace => deliver (.object [] .closed) frames
  | .firstKey, t => .broken (abandon (.object [] (.badKey t)) frames)
  | .colon entries key, .colon => .goOn .value (.object entries key :: frames)
  | .colon entries key, _ => .broken (abandon (.noColon false) (.object entries key :: frames))
  | .afterEntry entries, .closeBrace => deliver (objectOf entries .closed) frames
  | .afterEntry entries, .comma => .goOn (.keyAfterComma entries) frames
  | .afterEntry entries, _ => .broken (abandon (objectOf entries .noComma) frames)
  | .keyAfterComma entries, .string key => .goOn (.colon entries key) frames
  | .keyAfterComma entries, .closeBrace =>
    .broken (abandon (objectOf entries .trailingComma) frames)
  | .keyAfterComma entries, t => .broken (abandon (objectOf entries (.badKey t)) frames)

def atEnd (due : Due) (frames : List Frame) : Doc :=
  match due with
  | .value => abandon .absent frames
  | .firstItem => abandon (.array [] .cut) frames
  | .afterItem items => abandon (arrayOf items .cut) frames
  | .itemAfterComma items => abandon (arrayOf items .cutAfterComma) frames
  | .firstKey => abandon (.object [] .cut) frames
  | .colon entries key => abandon (.noColon true) (.object entries key :: frames)
  | .afterEntry entries => abandon (objectOf entries .cut) frames
  | .keyAfterComma entries => abandon (objectOf entries .cutAfterComma) frames

/-- The document that the tokens make, and the tokens after it. -/
def build (due : Due) (frames : List Frame) : List Token → Doc × List Token
  | [] => (atEnd due frames, [])
  | t :: ts =>
    match step due frames t with
    | .goOn due frames => build due frames ts
    | .complete d => (d, ts)
    | .broken d => (d, [])

def ofText (text : String) : Doc × List Token := build .value [] (tokens text)

end Doc

end Lineage.Json
