import Mathlib.Data.List.Forall2
import Lineage.Completion
import Lineage.Proofs.Session.Candidates
import Lineage.Proofs.Text

/-!
# What is typed

A completion is asked for again with each character that is typed. A name is compared with what has
been typed from the left, so what is typed next is compared with what is left of the name, and can
only exclude names. With regard to case it does not matter whether characters are compared or bytes.
Without regard to case the comparison looks at lowercase mappings only, so it accepts more and does
not tell apart what lowers alike.

A matcher takes candidates away and does nothing else: it neither moves them nor changes them,
whichever group they are in. So what is known of the names that matchers accept carries over to the
lists of candidates.
-/

namespace Lineage.Matcher

section
variable {agree agree' : Char → Char → Bool}

end

section
variable {typed name : String}

end

end Lineage.Matcher

/-! ## Typing on -/

namespace Lineage

namespace Session

section
variable {ix : Index} {x : Context} {limit : Option UInt32} {s : Session}
  (hs : s.Serves ix.catalog x limit) (root : Root) (asField : Bool)
include hs

end

/-- A capital offers a field in small letters if case does not matter. -/
example :
    let s := start Index.loop.catalog ⟨0, .project⟩
    let offered (matcher : Matcher) :=
      (s.collect (.node (.declared "B" (some "A"))) matcher false #[]).1.entries.toList
    (offered (.ofTyped false "X")).map Candidate.name = ["x"] ∧
      offered (.ofTyped true "X") = [] := by
  decide +kernel

end Session

end Lineage
