/-!
# Lexemes of strings and numbers

The ways in which a text can fail to be JSON, and strings and numbers as they are written. A string
goes up to the closing quote, or up to the place where it goes wrong. What text it stands for is a
second question, because an escape may be half of a surrogate pair, and a string that is skipped is
never asked for its text.
-/

namespace Lineage.Json

inductive Fault where
  | listCut
  | objectCut
  | stringCut
  | valueCut
  | expectedColon
  | expectedListEnd
  | expectedObjectEnd
  | expectedWord
  | expectedValue
  | invalidEscape
  | invalidNumber
  | numberOutOfRange
  | controlCharacter
  | keyNotString
  | loneSurrogate
  | trailingComma
  | trailingCharacters
  | hexEscapeCut
  | nestingTooDeep
  deriving DecidableEq

namespace Fault

/-- Did the text end too early, rather than go wrong? -/
def isCut : Fault → Bool
  | listCut | objectCut | stringCut | valueCut => true
  | _ => false

def message : Fault → String
  | listCut => "EOF while parsing a list"
  | objectCut => "EOF while parsing an object"
  | stringCut => "EOF while parsing a string"
  | valueCut => "EOF while parsing a value"
  | expectedColon => "expected `:`"
  | expectedListEnd => "expected `,` or `]`"
  | expectedObjectEnd => "expected `,` or `\x7d`"
  | expectedWord => "expected ident"
  | expectedValue => "expected value"
  | invalidEscape => "invalid escape"
  | invalidNumber => "invalid number"
  | numberOutOfRange => "number out of range"
  | controlCharacter => "control character (\\u0000-\\u001F) found while parsing a string"
  | keyNotString => "key must be a string"
  | loneSurrogate => "lone leading surrogate in hex escape"
  | trailingComma => "trailing comma"
  | trailingCharacters => "trailing characters"
  | hexEscapeCut => "unexpected end of hex escape"
  | nestingTooDeep => "recursion limit exceeded"

end Fault

inductive StringUnit where
  | char (c : Char)
  /-- The UTF-16 code unit of a `\u` escape. -/
  | escaped (unit : Nat)
  deriving DecidableEq

inductive StringEnd where
  | closed
  | cutShort
  | controlCharacter
  | unknownEscape
  | badHex
  deriving DecidableEq

def StringEnd.fault? : StringEnd → Option Fault
  | closed => none
  | cutShort => some .stringCut
  | controlCharacter => some .controlCharacter
  | unknownEscape => some .invalidEscape
  | badHex => some .invalidEscape

structure StringLexeme where
  units : List StringUnit
  ending : StringEnd
  deriving DecidableEq

def isHighSurrogate (n : Nat) : Bool := 0xD800 ≤ n && n ≤ 0xDBFF

def isLowSurrogate (n : Nat) : Bool := 0xDC00 ≤ n && n ≤ 0xDFFF

/-- The fault at the end of a string whose last unit is a high surrogate. -/
def StringEnd.faultAfterHigh : StringEnd → Fault
  | cutShort => .stringCut
  | badHex => .invalidEscape
  | _ => .hexEscapeCut

/-- The characters of the units that are left, after those in `done`, which is reversed. -/
def decodeUnits (ending : StringEnd) (done : List Char) : List StringUnit →
    Except Fault (List Char)
  | [] =>
    match ending.fault? with
    | some fault => .error fault
    | none => .ok done.reverse
  | .char c :: us => decodeUnits ending (c :: done) us
  | .escaped n :: us =>
    if isLowSurrogate n then .error .loneSurrogate
    else if isHighSurrogate n then
      match us with
      | [] => .error ending.faultAfterHigh
      | .char _ :: _ => .error .hexEscapeCut
      | .escaped m :: us =>
        if isLowSurrogate m then
          decodeUnits ending
            (Char.ofNat ((n - 0xD800) * 0x400 + (m - 0xDC00) + 0x10000) :: done) us
        else .error .loneSurrogate
    else decodeUnits ending (Char.ofNat n :: done) us

def StringLexeme.text (s : StringLexeme) : Except Fault String :=
  (decodeUnits s.ending [] s.units).map String.ofList

def hexValue? (c : Char) : Option Nat :=
  if '0' ≤ c ∧ c ≤ '9' then some (c.toNat - 48)
  else if 'a' ≤ c ∧ c ≤ 'f' then some (c.toNat - 87)
  else if 'A' ≤ c ∧ c ≤ 'F' then some (c.toNat - 55)
  else none

def hexUnit? (a b c d : Char) : Option Nat := do
  let a ← hexValue? a
  let b ← hexValue? b
  let c ← hexValue? c
  let d ← hexValue? d
  return ((a * 16 + b) * 16 + c) * 16 + d

def shortEscape? : Char → Option Char
  | '"' => some '"'
  | '\\' => some '\\'
  | '/' => some '/'
  | 'b' => some '\x08'
  | 'f' => some '\x0c'
  | 'n' => some '\n'
  | 'r' => some '\r'
  | 't' => some '\t'
  | _ => none

/-- How a string ends in which `\u` has fewer than four characters left: it is cut short if these
are fewer than four bytes. -/
def hexEnd (cs : List Char) : StringEnd :=
  if (String.ofList cs).utf8ByteSize < 4 then .cutShort else .badHex

/-- Reads on after the opening quote; `done` holds the units so far, reversed. A string that goes
wrong takes the rest of the text with it. -/
def lexString (done : List StringUnit) : List Char → StringLexeme × List Char
  | [] => (⟨done.reverse, .cutShort⟩, [])
  | c :: cs =>
    if c = '"' then (⟨done.reverse, .closed⟩, cs)
    else if c = '\\' then
      match cs with
      | [] => (⟨done.reverse, .cutShort⟩, [])
      | e :: cs =>
        if e = 'u' then
          match cs with
          | w :: x :: y :: z :: cs =>
            match hexUnit? w x y z with
            | some n => lexString (.escaped n :: done) cs
            | none => (⟨done.reverse, .badHex⟩, [])
          | short => (⟨done.reverse, hexEnd short⟩, [])
        else
          match shortEscape? e with
          | some c => lexString (.char c :: done) cs
          | none => (⟨done.reverse, .unknownEscape⟩, [])
    else if c < ' ' then (⟨done.reverse, .controlCharacter⟩, [])
    else lexString (.char c :: done) cs

theorem length_lexString_le (done : List StringUnit) (cs : List Char) :
    (lexString done cs).2.length ≤ cs.length := by
  fun_induction lexString done cs <;> simp_all <;> omega

/-! ## Numbers -/

structure Number where
  negative : Bool
  whole : List Char
  fraction : List Char := []
  /-- Is the exponent negative, and its digits. -/
  exponent : Option (Bool × List Char) := none
  deriving DecidableEq

/-- A number that is not complete, and whether that is because the text ends. -/
structure BrokenNumber where
  atEnd : Bool

def lexDigits (cs : List Char) : List Char × List Char :=
  (cs.takeWhile Char.isDigit, cs.dropWhile Char.isDigit)

def lexDigits1 (cs : List Char) : Except BrokenNumber (List Char × List Char) :=
  match lexDigits cs with
  | ([], rest) => .error ⟨rest.isEmpty⟩
  | (digits, rest) => .ok (digits, rest)

/-- The digits before the point: a zero that stands alone, or digits without a leading zero. -/
def lexWhole (cs : List Char) : Except BrokenNumber (List Char × List Char) :=
  match lexDigits1 cs with
  | .ok ('0' :: _ :: _, _) => .error ⟨false⟩
  | whole => whole

def lexFraction : List Char → Except BrokenNumber (List Char × List Char)
  | '.' :: cs => lexDigits1 cs
  | cs => .ok ([], cs)

def lexSign : List Char → Bool × List Char
  | '-' :: cs => (true, cs)
  | '+' :: cs => (false, cs)
  | cs => (false, cs)

def lexExponent : List Char → Except BrokenNumber (Option (Bool × List Char) × List Char)
  | [] => .ok (none, [])
  | c :: cs =>
    if c = 'e' ∨ c = 'E' then do
      let (negative, cs) := lexSign cs
      let (digits, cs) ← lexDigits1 cs
      return (some (negative, digits), cs)
    else .ok (none, c :: cs)

/-- Reads a number whose sign has been read. -/
def lexNumber (negative : Bool) (cs : List Char) : Except BrokenNumber (Number × List Char) := do
  let (whole, cs) ← lexWhole cs
  let (fraction, cs) ← lexFraction cs
  let (exponent, cs) ← lexExponent cs
  return (⟨negative, whole, fraction, exponent⟩, cs)

theorem length_lexDigits1_lt {cs digits rest : List Char}
    (h : lexDigits1 cs = .ok (digits, rest)) : rest.length < cs.length := by
  unfold lexDigits1 lexDigits at h
  split at h
  · cases h
  · next hne heq =>
    cases h
    simp only [Prod.mk.injEq] at heq
    have hlen :=
      congrArg List.length (List.takeWhile_append_dropWhile (p := Char.isDigit) (l := cs))
    rw [heq.1, heq.2, List.length_append] at hlen
    cases digits with
    | nil => exact (hne rfl).elim
    | cons d ds => simp only [List.length_cons] at hlen; omega

theorem length_lexWhole_lt {cs digits rest : List Char}
    (h : lexWhole cs = .ok (digits, rest)) : rest.length < cs.length := by
  unfold lexWhole at h
  split at h
  · cases h
  · exact length_lexDigits1_lt h

theorem length_lexFraction_le {cs digits rest : List Char}
    (h : lexFraction cs = .ok (digits, rest)) : rest.length ≤ cs.length := by
  unfold lexFraction at h
  split at h
  · exact Nat.le_succ_of_le (Nat.le_of_lt (length_lexDigits1_lt h))
  · cases h; exact Nat.le_refl _

theorem length_lexSign_le (cs : List Char) : (lexSign cs).2.length ≤ cs.length := by
  unfold lexSign
  split <;> simp

theorem length_lexExponent_le {cs rest : List Char} {e : Option (Bool × List Char)}
    (h : lexExponent cs = .ok (e, rest)) : rest.length ≤ cs.length := by
  unfold lexExponent at h
  split at h
  · cases h; exact Nat.le_refl _
  · next c cs =>
    split at h
    · match hd : lexDigits1 (lexSign cs).2 with
      | .error _ => simp [hd, bind, Except.bind] at h
      | .ok (digits, cs') =>
        simp only [hd, bind, Except.bind, pure, Except.pure, Except.ok.injEq, Prod.mk.injEq] at h
        have := length_lexDigits1_lt hd
        have := length_lexSign_le cs
        simp only [List.length_cons, ← h.2]
        omega
    · cases h; exact Nat.le_refl _

theorem length_lexNumber_lt {negative : Bool} {cs rest : List Char} {n : Number}
    (h : lexNumber negative cs = .ok (n, rest)) : rest.length < cs.length := by
  unfold lexNumber at h
  match hw : lexWhole cs with
  | .error _ => simp [hw, bind, Except.bind] at h
  | .ok (whole, cs₁) =>
    match hf : lexFraction cs₁ with
    | .error _ => simp [hw, hf, bind, Except.bind] at h
    | .ok (fraction, cs₂) =>
      match he : lexExponent cs₂ with
      | .error _ => simp [hw, hf, he, bind, Except.bind] at h
      | .ok (exponent, cs₃) =>
        simp only [hw, hf, he, bind, Except.bind, pure, Except.pure, Except.ok.injEq,
          Prod.mk.injEq] at h
        have := length_lexWhole_lt hw
        have := length_lexFraction_le hf
        have := length_lexExponent_le he
        rw [← h.2]
        omega

end Lineage.Json
