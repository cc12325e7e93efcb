import Lineage.Completion
import Lineage.Files.Tree
import Lineage.Main
import Lineage.Proofs.Candidate.Snippet
import Lineage.Proofs.Config
import Lineage.Proofs.Diagnostic
import Lineage.Proofs.Json.Exact
import Lineage.Proofs.Options
import Lineage.Proofs.Report.Json
import Lineage.Proofs.Report.Text
import Lineage.Proofs.Session.Accounts
import Lineage.Proofs.Session.Agreement
import Lineage.Proofs.Session.Anonymous
import Lineage.Proofs.Session.Chain
import Lineage.Proofs.Session.Counters
import Lineage.Proofs.Session.Indiscernible
import Lineage.Proofs.Session.Inheritance
import Lineage.Proofs.Session.Laziness
import Lineage.Proofs.Session.Locality
import Lineage.Proofs.Session.Operation
import Lineage.Proofs.Session.Passes
import Lineage.Proofs.Session.Typing
import Lineage.Proofs.Session.Unlimited
import Lineage.Proofs.Session.Widening
import Lineage.Proofs.Snapshot
import Lineage.Proofs.Stub.Damage
import Lineage.Proofs.Stub.Refusal
import Lineage.Proofs.Stub.Stream
import Lineage.Proofs.Text
import Lineage.Proofs.Text.Template
import Lineage.Proofs.Visibility
import Lineage.Session.Operation
