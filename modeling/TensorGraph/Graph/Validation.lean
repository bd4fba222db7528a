import TensorGraph.Graph.Selection
import TensorGraph.Network.Typing

/-!
# Validation and reshaping

Inferring all types of a graph anew along its schedule, and checking that its
parameters are declared and its tensor names unique.  Reshaping declares new
shapes for parameters and validates the graph; where that fails, the former
shapes are declared and inferred again.
-/

namespace TensorGraph

/-- The tensor that a requested shape is meant for. -/
inductive ShapeTarget where
  | tensor (name : String)
  | port (port : OutputPort)
  deriving DecidableEq

/-- A failed inference, reported as shapes that cannot be taken. -/
def GraphError.asReshapeRefusal : GraphError → GraphError
  | .inference failure => .invalidReshape (.inference failure)
  | error => error

namespace Network

/-- The names that outputs carry, each with its output. -/
def namings (network : Network) (ports : List OutputPort) : List (String × OutputPort) :=
  ports.flatMap fun port => (network.tensorNames port).map fun name => (name, port)

/-- No two of the namings have one name; the earlier ones are given in
reverse. -/
def checkUnique (network : Network) (earlier : List (String × OutputPort)) :
    List (String × OutputPort) → Except GraphError Unit
  | [] => .ok ()
  | (name, port) :: later =>
      match earlier.find? (·.1 = name) with
      | some (_, first) =>
          .error (.nameConflict (.shared name (network.outputLabel first)
            (network.outputLabel port)))
      | none => network.checkUnique ((name, port) :: earlier) later

end Network

namespace Edit

/-- Infer all types of a graph and check its parameters and names. -/
def validate (id : GraphId) : Edit Unit := do
  let nodes ← schedule id
  nodes.forM inferNode
  checkDeclared id
  ask fun network => network.checkUnique [] (network.namings (network.ownerPorts nodes))

/-- Some tensor of the graph has a shape that is not fully known. -/
def isDynamic (id : GraphId) : Edit Bool := do
  let nodes ← schedule id
  let network ← get
  return (nodes.flatMap network.outputPorts).any fun port =>
    (network.tensorType port).shape.isDynamic

/-- The parameter that a requested shape is meant for. -/
def resolveParameter (id : GraphId) : ShapeTarget → Edit NodeId
  | .tensor name => do
      let network ← get
      match network.portNamed (network.graph id).parameters name with
      | .ok port => return port.node
      | .error (.nameNotFound _) =>
          let nodes ← schedule id
          if (← get).portsNamed nodes name = [] then throw (.nameNotFound name)
          else throw (.invalidReshape (.noParameterTensor name))
      | .error error => throw error
  | .port port => do
      let network ← get
      if port.node ∈ (network.graph id).parameters then return port.node
      else throw (.invalidReshape (.noParameterPort (network.outputLabel port)))

/-- Add a request for a parameter to the earlier ones; a repeated one must ask
for the same shape. -/
def addRequest (id : GraphId) (requests : List (NodeId × PartialShape))
    (request : ShapeTarget × PartialShape) : Edit (List (NodeId × PartialShape)) := do
  let parameter ← resolveParameter id request.1
  match requests.find? (·.1 = parameter) with
  | none => return requests ++ [(parameter, request.2)]
  | some (_, earlier) =>
      if earlier = request.2 then return requests
      else
        throw (.invalidReshape
          (.contradiction ((← get).label parameter) earlier request.2))

def declareShapes (shapes : List (NodeId × PartialShape)) : Edit Unit :=
  shapes.forM fun (parameter, shape) => declareShape parameter shape

/-- Declare the former shapes again and infer all types from them; a failure of
that is only reported. -/
def restore (id : GraphId) (former : List (NodeId × PartialShape)) : Edit Unit := do
  declareShapes former
  (validate id).orElse fun error => do
    report (.restoreFailed ((← get).graph id).name error)

/-- Declare new shapes for parameters of a graph and infer all types; if that
fails, go back to the former shapes. -/
def reshape (id : GraphId) (requests : List (ShapeTarget × PartialShape)) : Edit Unit := do
  let shapes ← requests.foldlM (addRequest id) []
  let network ← get
  let former := shapes.filterMap fun (parameter, _) =>
    (network.declaration? parameter).map fun declared => (parameter, declared.shape)
  declareShapes shapes
  (validate id).orElse fun error => do
    report (.reshapeFailed ((← get).graph id).name error)
    restore id former
    throw error.asReshapeRefusal
  report (.reshaped ((← get).graph id).name shapes.length)

end Edit
end TensorGraph
