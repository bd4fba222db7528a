import TensorGraph.Network.Lifetime
import TensorGraph.Network.Typing

/-!
# Creating nodes

A new node reads outputs that exist.  It takes the next number and is listed among
their consumers before its output types are inferred.  If they cannot be inferred,
the node is released again; its number stays used up.  A node without a name is
called after its operator and its number.
-/

namespace TensorGraph
namespace Network

/-- The name of a node that is given none. -/
def defaultName (operator : Operator) (id : NodeId) : String :=
  operator.typeName ++ "_" ++ Text.Decimal.text id

/-- A node under the next number. -/
def addNode (network : Network) (name : String) (operator : Operator)
    (sources : List OutputPort) (types : List TensorType) : Network :=
  let node : Node := {
    name, operator, sources
    outputs := types.map ({ type := ·, names := [], consumers := [] })
    controlDependencies := []
    controlDependents := []
    memberships := [] }
  let id := network.nodes.nextId
  { network with nodes := network.nodes.push node }.connectAll id sources

/-- A node under the next number, of whose outputs nothing is known yet. -/
def register (network : Network) (name : String) (operator : Operator)
    (sources : List OutputPort) : Network :=
  network.addNode name operator sources (List.replicate operator.outputCount default)

end Network

namespace Edit

/-- The attributes of an operator make sense: the elements of a constant are
integers, one for each place in its shape. -/
def checkOperator : Operator → Edit Unit
  | .constant elementType sizes values => do
      if !elementType.isIntegral then
        throw (.invalidOperation (.constantElementType elementType))
      if values.length ≠ sizeProduct sizes then
        throw (.invalidOperation (.constantValueCount sizes (sizeProduct sizes) values.length))
  | _ => pure ()

/-- Create a node with an operator that reads the given outputs. -/
def create (operator : Operator) (sources : List OutputPort) (name : Option String) :
    Edit NodeId := do
  checkOperator operator
  sources.forM checkPort
  let id := (← get).nodes.nextId
  change (·.register (name.getD (Network.defaultName operator id)) operator sources)
  undoing (inferNode id) (·.discard id)
  return id

end Edit
end TensorGraph
