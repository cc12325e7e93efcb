/-!
# JSON values and their text

Values to be written, in one of two layouts: without any blanks, or with every item on a line of
its own, indented by two blanks for each container around it.
-/

namespace Lineage.Json

inductive Value where
  | null
  | bool (b : Bool)
  | number (n : Nat)
  | string (s : String)
  | array (items : List Value)
  | object (entries : List (String × Value))

inductive Layout where
  | compact
  | indented
  deriving DecidableEq

namespace Layout

/-- What stands before an item, or before the end of a container, inside `depth` containers. -/
def lineBreak : Layout → Nat → List Char
  | compact, _ => []
  | indented, depth => '\n' :: List.replicate (2 * depth) ' '

def colon : Layout → List Char
  | compact => [':']
  | indented => [':', ' ']

end Layout

def hexDigit (n : Nat) : Char := if n < 10 then Char.ofNat (48 + n) else Char.ofNat (87 + n)

/-- A character as it stands in a string: control characters, the quote and the backslash are
escaped, all others stand for themselves. -/
def escapeChar (c : Char) : List Char :=
  if c = '"' then ['\\', '"']
  else if c = '\\' then ['\\', '\\']
  else if c = '\x08' then ['\\', 'b']
  else if c = '\x0c' then ['\\', 'f']
  else if c = '\n' then ['\\', 'n']
  else if c = '\r' then ['\\', 'r']
  else if c = '\t' then ['\\', 't']
  else if c < ' ' then ['\\', 'u', '0', '0', hexDigit (c.toNat / 16), hexDigit (c.toNat % 16)]
  else [c]

def writeString (s : String) : List Char := '"' :: s.toList.flatMap escapeChar ++ ['"']

namespace Value

mutual

/-- The text of a value that stands inside `depth` containers. -/
def write (layout : Layout) (depth : Nat) : Value → List Char
  | null => ['n', 'u', 'l', 'l']
  | bool true => ['t', 'r', 'u', 'e']
  | bool false => ['f', 'a', 'l', 's', 'e']
  | number n => Nat.toDigits 10 n
  | string s => writeString s
  | array [] => ['[', ']']
  | array (v :: vs) =>
    '[' :: layout.lineBreak (depth + 1) ++ v.write layout (depth + 1) ++
      writeItems layout (depth + 1) vs ++ layout.lineBreak depth ++ [']']
  | object [] => ['\x7b', '\x7d']
  | object ((key, v) :: es) =>
    '\x7b' :: layout.lineBreak (depth + 1) ++ writeString key ++ layout.colon ++
      v.write layout (depth + 1) ++ writeEntries layout (depth + 1) es ++
      layout.lineBreak depth ++ ['\x7d']

def writeItems (layout : Layout) (depth : Nat) : List Value → List Char
  | [] => []
  | v :: vs =>
    ',' :: layout.lineBreak depth ++ v.write layout depth ++ writeItems layout depth vs

def writeEntries (layout : Layout) (depth : Nat) : List (String × Value) → List Char
  | [] => []
  | (key, v) :: es =>
    ',' :: layout.lineBreak depth ++ writeString key ++ layout.colon ++ v.write layout depth ++
      writeEntries layout depth es

end

def text (layout : Layout) (v : Value) : String := String.ofList (v.write layout 0)

def ofOption {α : Type} (f : α → Value) : Option α → Value
  | some a => f a
  | none => null

def ofNames (names : List String) : Value := array (names.map string)

/-- An entry that is left out if there is no value. -/
def optionalEntry {α : Type} (key : String) (f : α → Value) : Option α → List (String × Value)
  | some a => [(key, f a)]
  | none => []

end Value

end Lineage.Json
