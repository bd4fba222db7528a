import TensorGraph.Description.Writing
import TensorGraph.Graph.Schedule
import TensorGraph.Network.Naming
import TensorGraph.Text.Table

/-!
# Describing a graph

A graph as a description of its nodes in the order of its schedule, and that
description as a table.
-/

namespace TensorGraph
namespace Network

def describeTensor (network : Network) (port : OutputPort) : TensorDescription where
  type := network.tensorType port
  names := network.tensorNames port

def describeNode (network : Network) (id : NodeId) : Option NodeDescription :=
  (network.node? id).map fun node => {
    id
    name := node.name
    operator := node.operator.describe
    role := node.operator.role
    outputs := (network.outputPorts id).map network.describeTensor
    inputs := node.sources.map fun source => (source.node, source.index)
    controlDependencies := node.controlDependencies }

/-- The description of the given nodes. -/
def describe (network : Network) (name : String) (nodes : List NodeId) : GraphDescription :=
  { GraphDescription.empty name with nodes := nodes.filterMap network.describeNode }

end Network

/-- The types of the outputs, as a table shows them. -/
def NodeDescription.typesText (node : NodeDescription) : String :=
  if node.outputs.isEmpty then "-"
  else ", ".intercalate (node.outputs.map fun tensor =>
    tensor.type.elementType.text ++ tensor.type.shape.text)

/-- The names of the outputs, as a table shows them. -/
def NodeDescription.namesText (node : NodeDescription) : String :=
  match node.outputs.flatMap (·.names) with
  | [] => "-"
  | names => ", ".intercalate names

namespace GraphDescription

/-- The names of the nodes that a node reads, as a table shows them. -/
def parentsText (graph : GraphDescription) (node : NodeDescription) : String :=
  if node.inputs.isEmpty then "-"
  else ", ".intercalate ((node.inputs.filterMap fun (id, _) => graph.findNode? id).map (·.name))

/-- The row of a node in the table of a graph. -/
def row (graph : GraphDescription) (node : NodeDescription) : List String :=
  [node.name, node.operator.typeName, node.typesText, node.namesText, graph.parentsText node]

/-- The head of the table of a graph. -/
def columns : List String :=
  ["节点名称", "类型", "输出形状", "张量名", "父节点"]

/-- The table of a graph, with its name above and the sizes of its boundary
below. -/
def summary (graph : GraphDescription) (parameters results sinks : Nat) : String :=
  let count := Text.Decimal.text
  "图: " ++ graph.name ++ "\n" ++
    Text.Table.render columns (graph.nodes.map graph.row) ++
    "Parameter: " ++ count parameters ++ "，Result: " ++ count results ++
    "，Sink: " ++ count sinks ++ "，节点总数: " ++ count graph.nodes.length ++ "\n"

end GraphDescription

namespace Edit

def describe (id : GraphId) : Edit GraphDescription := do
  let nodes ← schedule id
  let network ← get
  return network.describe (network.graph id).name nodes

/-- The table of a graph. -/
def summarize (id : GraphId) : Edit String := do
  let description ← describe id
  let graph := (← get).graph id
  return description.summary graph.parameters.length graph.results.length graph.sinks.length

end Edit
end TensorGraph
