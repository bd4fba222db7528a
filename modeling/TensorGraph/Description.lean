import TensorGraph.Role
import TensorGraph.Shape

/-!
# Descriptions of graphs

A graph as data that can be written down: its nodes in dependency order, each
with its operator, its outputs, the outputs that it reads and the nodes that it
is ordered after.  Descriptions are for reading by people and tools; no graph
is built from one.
-/

namespace TensorGraph

/-- What a description says of an operator. -/
inductive OperatorDescription where
  | parameter
  | result
  | constant (values : List Int)
  | assign (stateVariable : String)
  | relu
  | concat (axis : Int)
  | shapeOf
  | reshape (specialZero : Bool)
  deriving DecidableEq, Inhabited

namespace OperatorDescription

def typeName : OperatorDescription → String
  | parameter => "Parameter"
  | result => "Result"
  | constant _ => "Constant"
  | assign _ => "Assign"
  | relu => "Relu"
  | concat _ => "Concat"
  | shapeOf => "ShapeOf"
  | reshape _ => "Reshape"

end OperatorDescription

/-- What a description says of one output of a node. -/
structure TensorDescription where
  type : TensorType
  names : List String
  deriving DecidableEq, Inhabited

/-- What a description says of a node; inputs are pairs of a node id and an
output index. -/
structure NodeDescription where
  id : Nat
  name : String
  operator : OperatorDescription
  role : Role
  outputs : List TensorDescription
  inputs : List (Nat × Nat)
  controlDependencies : List Nat
  deriving DecidableEq, Inhabited

/-- A graph as a list of described nodes. -/
structure GraphDescription where
  version : String
  name : String
  nodes : List NodeDescription
  deriving DecidableEq, Inhabited

namespace GraphDescription

/-- The version that descriptions are written in. -/
def currentVersion : String := "1.0"

def empty (name : String) : GraphDescription where
  version := currentVersion
  name := name
  nodes := []

def addNode (description : GraphDescription) (node : NodeDescription) : GraphDescription :=
  { description with nodes := description.nodes ++ [node] }

/-- The first node with the given id. -/
def findNode? (description : GraphDescription) (id : Nat) : Option NodeDescription :=
  description.nodes.find? (·.id = id)

end GraphDescription
end TensorGraph
