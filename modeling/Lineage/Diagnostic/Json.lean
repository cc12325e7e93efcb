import Lineage.Json.Value
import Lineage.Text

/-!
# Diagnostics

What a walk up a super chain reports when it is cut short, and how it is written in JSON. A
diagnostic never fails a query.
-/

namespace Lineage

structure Diagnostic where
  code : Nat
  /-- The class the walk started from. -/
  className : String
  message : String
  deriving DecidableEq

namespace Diagnostic

def codeText (d : Diagnostic) : String := "NOM" ++ toString d.code

def cyclicTemplate : String := "Super chain of '\x7b0\x7d' loops back to '\x7b1\x7d'."

def tooDeepTemplate : String :=
  "Super chain of '\x7b0\x7d' exceeds the maximum depth of \x7b1\x7d levels."

/-- The chain of `root` came back to the class `reached`. -/
def cyclic (root reached : String) : Diagnostic where
  code := 1001
  className := root
  message := Text.fill cyclicTemplate [root, reached]

/-- The chain of `root` has more levels than the limit allows. -/
def tooDeep (root : String) (limit : Nat) : Diagnostic where
  code := 1002
  className := root
  message := Text.fill tooDeepTemplate [root, toString limit]

end Diagnostic

open Json

def Diagnostic.toJson (d : Diagnostic) : Value :=
  .object [("code", .number d.code), ("className", .string d.className),
    ("messageText", .string d.message)]

end Lineage
