import JsxControl.Expand.Run
import JsxControl.Proofs.Acceptance.Pass
import JsxControl.Proofs.Complaints.Carets
import JsxControl.Proofs.Complaints.Place
import JsxControl.Proofs.Complaints.Reachable
import JsxControl.Proofs.Exchange.Canonical
import JsxControl.Proofs.Exchange.Leftover
import JsxControl.Proofs.Exchange.Readable
import JsxControl.Proofs.Idempotence
import JsxControl.Proofs.Legality.Braced
import JsxControl.Proofs.Location.Pass
import JsxControl.Proofs.Marks.Kept
import JsxControl.Proofs.Meaning.Pass
import JsxControl.Proofs.Observation.Agreement
import JsxControl.Proofs.Outline.Faithful
import JsxControl.Proofs.Parsing.Alternates
import JsxControl.Proofs.Parsing.Signs
import JsxControl.Proofs.Trace.Sinks
import JsxControl.Proofs.Traversal.Run
import JsxControl.Proofs.Writing.Attribute
import JsxControl.Proofs.Writing.Bodies
import JsxControl.Trace.Channel
import JsxControl.Traversal.Rules
import JsxControl.Tree.OfJson
import JsxControl.Tree.ToJson
