/-!
# Decimal numbers

Natural numbers in decimal digits, the texts that stand for a number of any kind, and the text of a
floating-point number with the fewest digits that read back as it. Of two such texts the one nearer
to the number is taken. The notation is positional for numbers from 1e-5 to below 1e16 and
scientific outside, where the exponent always has a sign; it always tells a number from an integer.
-/

namespace Lineage.Decimal

def digitValue (c : Char) : Nat := c.toNat - 48

/-- The number that `n` becomes when digits are written behind it. -/
def appendDigits (n : Nat) (digits : List Char) : Nat :=
  digits.foldl (fun n c => n * 10 + digitValue c) n

def natural? (digits : List Char) : Option Nat :=
  if digits.isEmpty || !digits.all Char.isDigit then none else some (appendDigits 0 digits)

def unsigned? : List Char → Option Nat
  | '+' :: digits => natural? digits
  | digits => natural? digits

def unsignedText : List Char → List Char
  | '+' :: cs | '-' :: cs => cs
  | cs => cs

def isExponentText : List Char → Bool
  | [] => true
  | c :: cs =>
    let digits := unsignedText cs
    (c == 'e' || c == 'E') && !digits.isEmpty && digits.all Char.isDigit

def isUnsignedNumberText (cs : List Char) : Bool :=
  let whole := cs.takeWhile Char.isDigit
  match cs.drop whole.length with
  | '.' :: cs =>
    let fraction := cs.takeWhile Char.isDigit
    (!whole.isEmpty || !fraction.isEmpty) && isExponentText (cs.drop fraction.length)
  | cs => !whole.isEmpty && isExponentText cs

def notFiniteWords : List String := ["inf", "infinity", "nan"]

def isNumberText (s : String) : Bool :=
  let cs := unsignedText s.toList
  notFiniteWords.contains (String.ofList (cs.map Char.toLower)) || isUnsignedNumberText cs

/-! ## Shortest texts -/

/-- A positive number as `digits * 10 ^ exponent`. -/
structure Parts where
  digits : Nat
  exponent : Int

/-- A positive number `mantissa * 2 ^ exponent` with the numbers that round to it: from half a step
below to half a step above, where the step below a power of two is half as large. -/
structure Binary where
  mantissa : Nat
  exponent : Int
  narrowBelow : Bool

def Binary.ofBits (bits : Nat) : Binary :=
  let fraction := bits % Nat.pow 2 52
  let biased : Nat := bits / Nat.pow 2 52 % Nat.pow 2 11
  if biased = 0 then ⟨fraction, -1074, false⟩
  else ⟨Nat.pow 2 52 + fraction, (biased : Int) - 1075, fraction == 0 && 1 < biased⟩

/-- `n * 2 ^ b * 10 ^ d`, as a fraction of natural numbers. -/
def ratio (n : Nat) (b d : Int) : Nat × Nat :=
  (n * Nat.pow 2 b.toNat * Nat.pow 10 d.toNat, Nat.pow 2 (-b).toNat * Nat.pow 10 (-d).toNat)

/-- Does `c * 10 ^ e` round to `x`? The ends of the interval do if the mantissa is even. -/
def Binary.holds (x : Binary) (c : Nat) (e : Int) : Bool :=
  let (cn, cd) := ratio (4 * c) (-x.exponent) e
  let low := (4 * x.mantissa - if x.narrowBelow then 1 else 2) * cd
  let high := (4 * x.mantissa + 2) * cd
  if x.mantissa % 2 = 0 then low ≤ cn && cn ≤ high else low < cn && cn < high

/-- The decimal on the grid of `10 ^ e` that is nearest to `x` among those that round to it. -/
def Binary.onGrid? (x : Binary) (e : Int) : Option Nat :=
  let (n, d) := ratio x.mantissa x.exponent (-e)
  let below := n / d
  let rest := n % d
  let nearBelow := 2 * rest < d || (2 * rest == d && below % 2 == 0)
  let (first, second) := if nearBelow then (below, below + 1) else (below + 1, below)
  if 0 < first && x.holds first e then some first
  else if 0 < second && x.holds second e then some second
  else none

/-- The exponent `e` with `10 ^ e ≤ x < 10 ^ (e + 1)`, sought downwards from `e + fuel`. -/
def Binary.decade (x : Binary) (e : Int) : Nat → Int
  | 0 => e
  | fuel + 1 =>
    let (n, d) := ratio x.mantissa x.exponent (-(e + (fuel + 1 : Nat)))
    if d ≤ n then e + (fuel + 1 : Nat) else x.decade e fuel

/-- Tries `tries` grids, each ten times finer than the one before. -/
def Binary.shortestFrom (x : Binary) (e : Int) : Nat → Parts
  | 0 => ⟨0, 0⟩
  | tries + 1 =>
    match x.onGrid? e with
    | some c => ⟨c, e⟩
    | none => x.shortestFrom (e - 1) tries

def Binary.shortest (x : Binary) : Parts := x.shortestFrom (x.decade (-330) 640) 18

/-- The digits without zeros at their end, which go to the exponent. -/
def trimZeros (digits : List Char) (e : Int) : List Char × Int :=
  let kept := (digits.reverse.dropWhile (· == '0')).reverse
  (kept, e + (digits.length - kept.length : Nat))

def zeros (n : Nat) : List Char := List.replicate n '0'

def exponentText (e : Int) : List Char :=
  (if e < 0 then '-' else '+') :: (toString e.natAbs).toList

def layOut (digits : List Char) (e : Int) : List Char :=
  let n := digits.length
  let point : Int := n + e
  if 0 ≤ e ∧ point ≤ 16 then digits ++ zeros e.toNat ++ ['.', '0']
  else if 0 < point ∧ point ≤ 16 then
    digits.take point.toNat ++ ['.'] ++ digits.drop point.toNat
  else if -5 < point ∧ point ≤ 0 then ['0', '.'] ++ zeros (-point).toNat ++ digits
  else
    let exponent := exponentText (point - 1)
    match digits with
    | [d] => d :: 'e' :: exponent
    | ds => ds.take 1 ++ ['.'] ++ ds.drop 1 ++ ['e'] ++ exponent

def textOfBits (bits : Nat) : String :=
  let magnitude := bits % Nat.pow 2 63
  let sign := if bits / Nat.pow 2 63 = 0 then "" else "-"
  if magnitude = 0 then sign ++ "0.0"
  else
    let p := (Binary.ofBits magnitude).shortest
    let (digits, e) := trimZeros (toString p.digits).toList p.exponent
    sign ++ String.ofList (layOut digits e)

def text (f : Float) : String := textOfBits f.toBits.toNat

end Lineage.Decimal
