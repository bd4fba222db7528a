import TensorGraph.Order.PostOrder
import TensorGraph.Proofs.Boundaries
import TensorGraph.Proofs.Concatenation
import TensorGraph.Proofs.Cycles
import TensorGraph.Proofs.Describing
import TensorGraph.Proofs.EventLog
import TensorGraph.Proofs.Liveness
import TensorGraph.Proofs.Lookups
import TensorGraph.Proofs.Monotonicity
import TensorGraph.Proofs.Ordering
import TensorGraph.Proofs.Ownership
import TensorGraph.Proofs.Patterns
import TensorGraph.Proofs.PostOrder
import TensorGraph.Proofs.Remnants
import TensorGraph.Proofs.Reshaping
import TensorGraph.Proofs.RoundTrip
import TensorGraph.Proofs.Separation
import TensorGraph.Proofs.Superseding
import TensorGraph.Shape.Matching
import TensorGraph.Proofs.Creation
import TensorGraph.Proofs.Retention
