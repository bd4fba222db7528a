import TensorGraph.Network.Wiring

/-!
# Types of nodes

Inferring the output types of a node anew, and declaring the type of a
parameter.  The types that a node has by its declarations alone are those that its
operator infers from the types which its sources have in turn; what the network has
stored as types plays no part in them.
-/

namespace TensorGraph
namespace Node

/-- Record the types of the outputs. -/
def withTypes (node : Node) (types : List TensorType) : Node :=
  { node with outputs := node.outputs.zipWith (fun tensor type => { tensor with type }) types }

/-- Declare the type of a parameter and of its output. -/
def declare (node : Node) (declared : TensorType) (change : TensorType → TensorType) : Node :=
  { node with
    operator := .parameter (change declared)
    outputs := node.outputs.modify 0 fun tensor => { tensor with type := change tensor.type } }

end Node

namespace Network

/-- What is known of an output to a node that reads it. -/
def operand (network : Network) (port : OutputPort) : Operand where
  type := network.tensorType port
  values := (network.node? port.node).bind (·.operator.constantValues?)

/-- The output types of an operator that reads the given outputs. -/
def infer (network : Network) (operator : Operator) (sources : List OutputPort) :
    Except InferenceError (List TensorType) :=
  operator.infer (sources.map network.operand)

/-- The declared type of a parameter. -/
def declaration? (network : Network) (id : NodeId) : Option TensorType :=
  (network.node? id).bind fun node =>
    match node.operator with
    | .parameter declared => some declared
    | _ => none

/-- The operand that an output of the given types is. -/
def operandOf (network : Network) (types : List TensorType) (port : OutputPort) : Operand where
  type := types.getD port.index default
  values := (network.node? port.node).bind (·.operator.constantValues?)

/-- The types that the outputs of a node have by the declarations of the
parameters and constants that it depends on. -/
inductive HasTypes (network : Network) : NodeId → List TensorType → Prop where
  | intro {id : NodeId} {node : Node} {types : List TensorType}
      (typesOf : NodeId → List TensorType)
      (alive : network.node? id = some node)
      (sources : ∀ source ∈ node.sources, HasTypes network source.node (typesOf source.node))
      (inferred : node.operator.infer
        (node.sources.map fun source => network.operandOf (typesOf source.node) source) =
          .ok types) :
      HasTypes network id types

end Network

namespace Edit

/-- Infer the output types of a node from what its sources are now known to
be. -/
def inferNode (id : NodeId) : Edit Unit := do
  let node ← node id
  match (← get).infer node.operator node.sources with
  | .error cause => throw (.inference ⟨cause, some (node.label id)⟩)
  | .ok types => change (·.modifyNode id (·.withTypes types))

/-- Change the declared type of a parameter; other nodes are refused. -/
def redeclare (id : NodeId) (update : TensorType → TensorType) (refusal : NodeLabel → Misuse) :
    Edit Unit := do
  let node ← node id
  match node.operator with
  | .parameter declared => change (·.modifyNode id (·.declare declared update))
  | _ => throw (.invalidOperation (refusal (node.label id)))

def declareShape (id : NodeId) (shape : PartialShape) : Edit Unit :=
  redeclare id ({ · with shape }) .shapeOfNonParameter

def declareElementType (id : NodeId) (elementType : ElementType) : Edit Unit :=
  redeclare id ({ · with elementType }) .typeOfNonParameter

def rename (id : NodeId) (name : String) : Edit Unit := do
  let _ ← node id
  change (·.modifyNode id ({ · with name }))

end Edit
end TensorGraph
