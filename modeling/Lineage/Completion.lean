import Lineage.Candidate.Json
import Lineage.Session
import Lineage.Text.Characters

/-!
# Completions

All members of a chain in a fixed order: the fields of every level, then the static methods of
every level, then the instance methods of every level. In each group the root's members come
first and a class's members keep the order in which they were declared. Nothing is sorted and
nothing is left out as a repetition, so a member that is hidden by a nearer one appears again under
its own class.

A matcher says which names are offered. Without regard to case, two characters agree when their full
lowercase mappings do. A host's request is answered in a session of its own. The host has to say
which project a request belongs to; a request without a project is a mistake of the host's and is
not answered.
-/

namespace Lineage

inductive Matcher where
  | all
  | exactCase (typed : String)
  | anyCase (typed : String)
  | rule (offers : String → Bool)

namespace Matcher

def ofTyped (caseSensitive : Bool) (typed : String) : Matcher :=
  if caseSensitive then exactCase typed else anyCase typed

/-- Does `name` begin with characters that agree with those of `typed`, one by one? -/
def startsWith (agree : Char → Char → Bool) : (typed name : List Char) → Bool
  | [], _ => true
  | _ :: _, [] => false
  | t :: ts, n :: ns => agree t n && startsWith agree ts ns

def sameLower (c d : Char) : Bool := Text.lower c == Text.lower d

def accepts : Matcher → String → Bool
  | all, _ => true
  | exactCase typed, name => startsWith (· == ·) typed.toList name.toList
  | anyCase typed, name => startsWith sameLower typed.toList name.toList
  | rule offers, name => offers name

end Matcher

/-- Candidates after what was there before, and how many of them were added. -/
structure Harvest where
  entries : Array Candidate := #[]
  count : Nat := 0

namespace Harvest

def offer (matcher : Matcher) (h : Harvest) (c : Candidate) : Harvest :=
  if matcher.accepts c.name then ⟨h.entries.push c, h.count + 1⟩ else h

/-- Offers the members that `declared` lists for each class of the chain. -/
def offerAll {α : Type} (matcher : Matcher) (chain : List String) (declared : String → List α)
    (candidate : String → Nat → α → Candidate) (h : Harvest) : Harvest :=
  chain.zipIdx.foldl (fun h level =>
    (declared level.1).foldl (fun h m => h.offer matcher (candidate level.1 level.2 m)) h) h

end Harvest

namespace Session

variable (s : Session) (root : Root) (matcher : Matcher) (asField : Bool)
  (sink : Array Candidate)

def offerFields (chain : List String) : Harvest → Harvest :=
  .offerAll matcher chain (s.catalog.fields · s.scope) Candidate.ofField

def offerStatics (chain : List String) : Harvest → Harvest :=
  .offerAll matcher chain (s.catalog.statics · s.scope) Candidate.ofStatic

def offerMethods (chain : List String) : Harvest → Harvest :=
  .offerAll matcher chain (s.catalog.methods · s.scope) (Candidate.ofMethod asField)

def collect : Harvest × Session :=
  let (chain, s) := s.superChain root
  let h := s.offerFields matcher chain ⟨sink, 0⟩
  let h := s.offerStatics matcher chain h
  let h := s.offerMethods matcher asField chain h
  (h, s.emit (.membersCollected root.name chain.length h.count))

def collectFields : Harvest × Session :=
  let (chain, s) := s.superChain root
  (s.offerFields matcher chain ⟨sink, 0⟩, s)

def collectStatics : Harvest × Session :=
  let (chain, s) := s.superChain root
  (s.offerStatics matcher chain ⟨sink, 0⟩, s)

def collectMethods : Harvest × Session :=
  let (chain, s) := s.superChain root
  (s.offerMethods matcher asField chain ⟨sink, 0⟩, s)

end Session

/-! ## Requests -/

structure CompletionRequest where
  project : Option Nat
  /-- The text typed after the member access operator. -/
  typed : String
  caseSensitive : Bool := true
  asField : Bool := false
  scope : Scope := .projectAndLibraries
  limit : Option UInt32 := none

structure Completion where
  entries : List Candidate
  diagnostics : List Diagnostic
  stats : Stats

namespace CompletionRequest

def noProjectMessage : String := "member completion requested without a project handle"

def context? (r : CompletionRequest) : Option Context :=
  r.project.map fun project => ⟨project, r.scope⟩

def matcher (r : CompletionRequest) : Matcher := .ofTyped r.caseSensitive r.typed

def completeIn (r : CompletionRequest) (catalog : Catalog) (context : Context) (root : Root) :
    Completion × Session :=
  let s := Session.start catalog context r.limit
  let (h, s) := s.collect root r.matcher r.asField #[]
  let (diagnostics, s) := s.takeDiagnostics
  (⟨h.entries.toList, diagnostics, s.stats⟩, s)

/-- The candidates of `root`, if the request names its project. -/
def complete? (r : CompletionRequest) (catalog : Catalog) (root : Root) :
    Option (Completion × Session) :=
  r.context?.map fun context => r.completeIn catalog context root

end CompletionRequest

end Lineage
