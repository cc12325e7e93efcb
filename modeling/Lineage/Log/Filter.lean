import Lineage.Decimal
import Lineage.Event
import Lineage.Pattern.Reader
import Lineage.Text

/-!
# Log filters

Which events are written to the log. A filter is a list of directives between commas; one is
written as `target[span{field=value}]=level`, and each part may be left out. By itself an event is on
if the weightiest plain directive about it is verbose enough. Inside a span it is also on if one of
the directives about the span is. Of two directives about the same the later counts.
-/

namespace Lineage.Log

inductive WantedValue where
  /-- A truth value or a number, which no text is. -/
  | scalar
  | text (pattern : Pattern)
  deriving DecidableEq

structure WantedField where
  name : String
  value : Option (String × WantedValue) := none
  deriving DecidableEq

structure Directive where
  /-- The beginning of the targets; `none` for all. -/
  target : Option String := none
  span : Option String := none
  field : Option WantedField := none
  /-- The most verbose level that is on; 0 is off. -/
  threshold : Nat := Event.Level.trace.rank
  deriving DecidableEq

inductive DirectiveFault where
  | malformed
  | insideCharacter
  | unknownLevel
  | badPattern (fault : Pattern.ReadFault)
  deriving DecidableEq

def DirectiveFault.message : DirectiveFault → String
  | malformed => "invalid filter directive"
  | insideCharacter => "filter directive cut inside a character"
  | unknownLevel =>
    "error parsing level filter: expected one of \"off\", \"error\", \"warn\", \"info\", " ++
      "\"debug\", \"trace\", or a number 0-5"
  | badPattern fault => "invalid field filter: " ++ fault.message

namespace WantedField

def readValue (s : String) : Except DirectiveFault WantedValue :=
  if s = "true" || s = "false" || Decimal.isNumberText s then .ok .scalar
  else ((Pattern.ofText s).map .text).mapError .badPattern

/-- Reads a name that an equals sign and a value may follow. What stands behind a second equals sign
does not count. -/
def ofText (s : String) : Except DirectiveFault WantedField :=
  match Text.split '=' s with
  | name :: value :: _ => (readValue value).map fun v => ⟨name, some (value, v)⟩
  | _ => .ok ⟨s, none⟩

def accepts (w : WantedField) (value : Option Event.FieldValue) : Bool :=
  match w.value, value with
  | none, _ => true
  | some (_, .text pattern), some (.text s) => pattern.fits s
  | _, _ => false

end WantedField

namespace Directive

/-! ## Reading

Blanks around a directive are passed over where its parts are sought and count where they are cut
out, so a place is a number of bytes from the start of the whole text. -/

def slice (raw : String) (first last : Nat) : Except DirectiveFault String :=
  match Text.slice? raw first (last - first) with
  | some s => .ok s
  | none => .error .insideCharacter

def rest (raw : String) (first : Nat) : Except DirectiveFault String :=
  slice raw first raw.utf8ByteSize

def byteSize (cs : List Char) : Nat := (String.ofList cs).utf8ByteSize

def readThreshold (name : String) : Option Nat :=
  match (Decimal.unsigned? name.toList).filter (· ≤ 5) with
  | some n => some n
  | none =>
    match name.toLower with
    | "off" => some 0
    | "" | "error" => some 1
    | "warn" => some 2
    | "info" => some 3
    | "debug" => some 4
    | "trace" => some 5
    | _ => none

def withLevel (raw : String) (d : Directive) (place : Nat) : Except DirectiveFault Directive := do
  let name ← rest raw place
  if name.isEmpty then return d
  else match readThreshold name with
    | some threshold => return { d with threshold }
    | none => throw .unknownLevel

def afterBracket (raw : String) (d : Directive) (place : Nat) :
    List Char → Except DirectiveFault Directive
  | [] => .ok d
  | '=' :: _ => withLevel raw d (place + 1)
  | _ => .error .malformed

def inField (raw : String) (d : Directive) (place : Nat) (cs : List Char) :
    Except DirectiveFault Directive := do
  let text := cs.takeWhile (· ≠ '\x7d')
  let finish := place + byteSize text
  match text, cs.drop text.length with
  | _ :: _, '\x7d' :: cs =>
    let field ← WantedField.ofText (← slice raw place finish)
    match cs with
    | ']' :: cs => afterBracket raw { d with field } (finish + 2) cs
    | _ => throw .malformed
  | _, _ => throw .malformed

/-- Reads a span behind its opening bracket. Without a name it is any span. -/
def inBracket (raw : String) (d : Directive) (place : Nat) (cs : List Char) :
    Except DirectiveFault Directive := do
  let text := cs.takeWhile fun c => c ≠ ']' && c ≠ '\x7b'
  let finish := place + byteSize text
  match cs.drop text.length with
  | ']' :: cs => afterBracket raw { d with span := ← slice raw place finish } (finish + 1) cs
  | '\x7b' :: cs =>
    if text.isEmpty then inField raw d (finish + 1) cs
    else inField raw { d with span := ← slice raw place finish } (finish + 1) cs
  | _ => throw .malformed

/-- A word that stands alone is a level or a target. -/
def ofWord (word : String) : Directive :=
  match readThreshold word with
  | some threshold => { threshold }
  | none => { target := some word }

def canBegin (c : Char) : Bool := c = '-' || c = ':' || c = '_' || Text.isAlphanumeric c

def ofText (raw : String) : Except DirectiveFault Directive := do
  match Text.trimList raw.toList with
  | [] => throw .malformed
  | '[' :: cs => inBracket raw {} 1 cs
  | c :: cs =>
    if !canBegin c then throw .malformed
    else
      let text := (c :: cs).takeWhile fun c => c ≠ '=' && c ≠ '['
      let finish := byteSize text
      match (c :: cs).drop text.length with
      | [] => return ofWord raw
      | '=' :: _ => withLevel raw { target := ← slice raw 0 finish } (finish + 1)
      | _ :: cs => inBracket raw { target := ← slice raw 0 finish } (finish + 1) cs

def coversTarget (d : Directive) (target : String) : Bool :=
  match d.target with
  | some start => start.toList.isPrefixOf target.toList
  | none => true

def coversSpan (d : Directive) (span : Event.Record) : Bool :=
  match d.span with
  | some name => name == span.message
  | none => true

def wantedValue? (d : Directive) : Option String := (d.field.bind (·.value)).map Prod.fst

/-- Is the directive about events by themselves? It is if neither a span nor a value is given. -/
def isPlain (d : Directive) : Bool := d.span.isNone && d.wantedValue?.isNone

def isAboutSpans (d : Directive) : Bool := d.span.isSome || d.field.isSome

def sameScope (d e : Directive) : Bool :=
  d.target == e.target && d.span == e.span && d.field.map (·.name) == e.field.map (·.name) &&
    d.wantedValue? == e.wantedValue?

def acceptsSpan (d : Directive) (span : Event.Record) : Bool :=
  match d.field with
  | some f => f.accepts (span.fieldValue? f.name)
  | none => true

/-- A target counts by its bytes; no target counts least. -/
def weight (d : Directive) : Nat :=
  match d.target with
  | some target => target.utf8ByteSize + 1
  | none => 0

/-- Does `d` weigh less than `e`? What is not decided by the targets is decided by the fields: one
weighs more than none, and of two the one with the later name. -/
def isLighter (d e : Directive) : Bool :=
  d.weight < e.weight || (d.weight == e.weight &&
    match d.field, e.field with
    | none, some _ => true
    | some v, some w => v.name < w.name
    | _, none => false)

end Directive

/-! ## Filters -/

structure Filter where
  directives : List Directive
  ignored : List (String × DirectiveFault) := []

namespace Filter

/-- Reads a filter. Without a directive only errors are logged. -/
def ofText (s : String) : Filter :=
  let parts := (Text.split ',' s).filter (!·.isEmpty)
  let directives := parts.filterMap fun part => (Directive.ofText part).toOption
  { directives := if directives.isEmpty then [{ threshold := 1 }] else directives
    ignored := parts.filterMap fun part =>
      match Directive.ofText part with
      | .ok _ => none
      | .error fault => some (part, fault) }

/-- A directive that cannot be cut breaks the whole filter. -/
def isBroken (f : Filter) : Bool := f.ignored.any (·.2 == .insideCharacter)

def skipped (f : Filter) : List (String × DirectiveFault) :=
  f.ignored.takeWhile (·.2 != .insideCharacter)

def heavier (best : Option Directive) (d : Directive) : Option Directive :=
  match best with
  | some b => if d.isLighter b then some b else some d
  | none => some d

def plainThreshold (f : Filter) (covers : Directive → Bool) : Nat :=
  let plain := f.directives.filter fun d => d.isPlain && covers d
  ((plain.foldl heavier none).map Directive.threshold).getD 0

/-- The message counts as a field of an event. -/
def coversEvent (r : Event.Record) (d : Directive) : Bool :=
  d.coversTarget r.target && d.field.all fun f => f.name == "message" || r.hasField f.name

def isOn (f : Filter) (r : Event.Record) : Bool :=
  r.level.rank ≤ f.plainThreshold (coversEvent r)

/-- The directives without those that a later one replaces. -/
def effective : List Directive → List Directive
  | [] => []
  | d :: ds => if ds.any d.sameScope then effective ds else d :: effective ds

def spanDirectives (f : Filter) (span : Event.Record) : List Directive :=
  (effective f.directives).filter fun d => d.isAboutSpans && d.coversTarget span.target &&
    d.coversSpan span && d.field.all fun w => span.hasField w.name

/-- The most verbose level that any directive asks for. If the value of a field matters, spans of
all levels are looked at. -/
def mostVerbose (f : Filter) : Nat :=
  if f.directives.any fun d => d.wantedValue?.isSome then Event.Level.trace.rank
  else (f.directives.map Directive.threshold).foldl max 0

/-- Is the span noticed at all? Its fields do not matter to plain directives. -/
def opens (f : Filter) (span : Event.Record) : Bool :=
  span.level.rank ≤ f.mostVerbose &&
    (!(f.spanDirectives span).isEmpty ||
      span.level.rank ≤ f.plainThreshold (·.coversTarget span.target))

def spanThreshold (f : Filter) (span : Event.Record) : Nat :=
  (((f.spanDirectives span).filter (·.acceptsSpan span)).map Directive.threshold).foldl max 0

def showsEvent (f : Filter) (span : Option Event.Record) (r : Event.Record) : Bool :=
  f.isOn r || span.any fun span => r.level.rank ≤ f.spanThreshold span

end Filter

end Lineage.Log
