/-!
# Texts

Texts as bytes and in parts. A text is split at a character into one part more than there are
occurrences. Occurrences of a text are replaced from left to right and do not overlap; what is put
in is not searched again. On this rest the templates of messages, whose numbered placeholders are
filled one number after the other, each in the text that the numbers before it have left, and
styles for a terminal, which are switched on again where the text itself switches them off.
-/

namespace Lineage.Text

def splitList (divider : Char) : List Char → List (List Char)
  | [] => [[]]
  | c :: cs =>
    if c = divider then [] :: splitList divider cs
    else match splitList divider cs with
      | [] => [[c]]
      | part :: parts => (c :: part) :: parts

def split (divider : Char) (s : String) : List String :=
  (splitList divider s.toList).map String.ofList

def lines (s : String) : List String := split '\n' s

def unlines (lines : List String) : String := String.join (lines.map (· ++ "\n"))

abbrev Bytes := List UInt8

def utf8 (s : String) : Bytes := s.toByteArray.data.toList

def ofUtf8? (bs : Bytes) : Option String := String.fromUTF8? ⟨bs.toArray⟩

/-- The part of `s` that has `count` bytes and begins at byte `first`. -/
def slice? (s : String) (first count : Nat) : Option String :=
  ofUtf8? (((utf8 s).drop first).take count)

theorem ofUtf8?_utf8 (s : String) : ofUtf8? (utf8 s) = some s := by
  unfold ofUtf8? utf8 String.fromUTF8?
  rw [dif_pos (by simpa using s.isValidUTF8)]
  rfl

theorem ofUtf8?_eq_some_iff {bs : Bytes} {s : String} : ofUtf8? bs = some s ↔ bs = utf8 s := by
  constructor
  · intro h
    unfold ofUtf8? String.fromUTF8? at h
    split at h
    · cases h; rfl
    · cases h
  · rintro rfl
    exact ofUtf8?_utf8 s

/-- `skip` counts the characters of an occurrence that are still to be passed over. -/
def replaceList (old new : List Char) (skip : Nat) : List Char → List Char
  | [] => []
  | c :: cs =>
    match skip with
    | k + 1 => replaceList old new k cs
    | 0 =>
      if old.isPrefixOf (c :: cs) then new ++ replaceList old new (old.length - 1) cs
      else c :: replaceList old new 0 cs

def replaceAll (s old new : String) : String :=
  String.ofList (replaceList old.toList new.toList 0 s.toList)

def placeholder (i : Nat) : String := "\x7b" ++ toString i ++ "\x7d"

def fillFrom (i : Nat) (message : String) : List String → String
  | [] => message
  | arg :: args => fillFrom (i + 1) (replaceAll message (placeholder i) arg) args

/-- `message` with placeholder `i` replaced by argument `i`, for each argument in order. -/
def fill (message : String) (args : List String) : String := fillFrom 0 message args

example : fill "\x7b1\x7d-\x7b0\x7d" ["a", "b"] = "b-a" := by decide
example : fill "\x7b0\x7d" ["\x7b1\x7d", "x"] = "x" := by decide

inductive Style where
  | bold
  | dimmed
  | underlined
  | yellow
  deriving DecidableEq

def Style.code : Style → String
  | bold => "1"
  | dimmed => "2"
  | underlined => "4"
  | yellow => "33"

def styleOn (styles : List Style) : String :=
  "\x1b[" ++ ";".intercalate (styles.map Style.code) ++ "m"

def styleOff : String := "\x1b[0m"

def styled (styles : List Style) (s : String) : String :=
  if styles.isEmpty then s
  else styleOn styles ++ replaceAll s styleOff (styleOff ++ styleOn styles) ++ styleOff

def styledIf (color : Bool) (styles : List Style) (s : String) : String :=
  if color then styled styles s else s

end Lineage.Text
