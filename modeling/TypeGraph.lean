import TypeGraph.Reference.Render
import TypeGraph.Resolution.Run
import TypeGraph.Proofs.Resolution.Accounting
import TypeGraph.Proofs.Resolution.EventStream
import TypeGraph.Proofs.Resolution.Idempotence
import TypeGraph.Proofs.Resolution.Isolation
import TypeGraph.Proofs.Resolution.Rendering
import TypeGraph.Proofs.Resolution.Shrinking
import TypeGraph.Proofs.Resolution.Subgraph
import TypeGraph.Proofs.Resolution.Truncation
import TypeGraph.Proofs.Catalog.Permanence
import TypeGraph.Proofs.Resolution.Dangling
import TypeGraph.Proofs.Resolution.Comparison
import TypeGraph.Proofs.Resolution.Enlargement
import TypeGraph.Proofs.Catalog.Scan
import TypeGraph.Proofs.Resolution.Retraction
import TypeGraph.Proofs.Catalog.Filing
import TypeGraph.Proofs.Resolution.Forgetting
import TypeGraph.Proofs.Resolution.Specification
import TypeGraph.Proofs.Resolution.Atomicity
import TypeGraph.Proofs.Resolution.Hygiene
import TypeGraph.Proofs.Resolution.Overload
import TypeGraph.Proofs.Signature.Offset
import TypeGraph.Proofs.Signature.Viability
import TypeGraph.Proofs.Signature.Spacing
import TypeGraph.Proofs.Resolution.Shape
