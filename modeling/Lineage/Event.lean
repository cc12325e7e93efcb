import Lineage.Text.Quoted

/-!
# Log events

What the index, a session and a query tell about their work. An event is a cause; `Event.record`
gives its level, target, message and fields as they are written to a log.
-/

namespace Lineage

inductive Event where
  /-- A second record for a class was left out. -/
  | duplicateClass (className : String) (keptSuper droppedSuper : Option String)
  | classLookup (className : String) (found : Bool)
  | superMissing (className superName : String)
  | cyclicChain (root reached : String)
  /-- A walk from `root` was stopped before `reached` by its depth limit. -/
  | chainTooDeep (root reached : String) (limit : Nat)
  | fieldSought (className field : String) (owner : Option String)
  /-- `found` holds the owner and whether the method is static. -/
  | methodSought (className method : String) (found : Option (String × Bool))
  | membersCollected (className : String) (levels emitted : Nat)
  | snapshotLoaded (path : String) (classes : Nat)
  /-- The span in which a command-line query runs. -/
  | queryStarted (className : String)
  deriving DecidableEq

namespace Event

inductive Level where
  | error
  | warn
  | info
  | debug
  | trace
  deriving DecidableEq

namespace Level

def rank : Level → Nat
  | error => 1
  | warn => 2
  | info => 3
  | debug => 4
  | trace => 5

def text : Level → String
  | error => "ERROR"
  | warn => "WARN"
  | info => "INFO"
  | debug => "DEBUG"
  | trace => "TRACE"

end Level

inductive FieldValue where
  | text (s : String)
  | flag (b : Bool)
  | number (n : Nat)
  deriving DecidableEq

/-- An event as a log holds it. A span has a name in place of a message. -/
structure Record where
  level : Level
  target : String
  message : String
  /-- A field may be without a value; then it is known by its name only. -/
  fields : List (String × Option FieldValue)
  deriving DecidableEq

namespace Record

def valuedFields (r : Record) : List (String × FieldValue) :=
  r.fields.filterMap fun f => f.2.map (f.1, ·)

def hasField (r : Record) (name : String) : Bool := r.fields.any (·.1 == name)

def fieldValue? (r : Record) (name : String) : Option FieldValue := (r.fields.lookup name).join

end Record

namespace FieldValue

def quoted (s : Option String) : FieldValue := text (Text.quotedOption s)

end FieldValue

def record : Event → Record
  | duplicateClass c kept dropped =>
    ⟨.debug, "nomina_index::memory", "duplicate class record ignored",
      [("class", some (.text c)), ("kept_super", some (.quoted kept)),
        ("dropped_super", some (.quoted dropped))]⟩
  | classLookup c found =>
    ⟨.trace, "nomina_solver::session", "class lookup",
      [("class", some (.text c)), ("found", some (.flag found))]⟩
  | superMissing c parent =>
    ⟨.trace, "nomina_solver::type_node", "super class not in index",
      [("class", some (.text c)), ("super_name", some (.text parent))]⟩
  | cyclicChain root reached =>
    ⟨.warn, "nomina_solver::session", "cyclic super chain",
      [("root", some (.text root)), ("at", some (.text reached))]⟩
  | chainTooDeep root reached limit =>
    ⟨.warn, "nomina_solver::session", "super chain too deep",
      [("root", some (.text root)), ("at", some (.text reached)), ("limit", some (.number limit))]⟩
  | fieldSought c field owner =>
    ⟨.debug, "nomina_solver::member_resolver", "find_field",
      [("class", some (.text c)), ("field", some (.text field)), ("owner", owner.map .text)]⟩
  | methodSought c method found =>
    ⟨.debug, "nomina_solver::member_resolver", "find_method",
      [("class", some (.text c)), ("method", some (.text method)),
        ("owner", found.map fun f => .text f.1), ("is_static", found.map fun f => .flag f.2)]⟩
  | membersCollected c levels emitted =>
    ⟨.debug, "nomina_lsp::candidates", "collected member candidates",
      [("class", some (.text c)), ("levels", some (.number levels)),
        ("emitted", some (.number emitted))]⟩
  | snapshotLoaded path classes =>
    ⟨.debug, "nomina::cli::driver", "loaded index snapshot",
      [("index", some (.text path)), ("classes", some (.number classes))]⟩
  | queryStarted c => ⟨.info, "nomina::cli::driver", "query", [("class", some (.text c))]⟩

def isSpan : Event → Bool
  | queryStarted _ => true
  | _ => false

end Event

end Lineage
