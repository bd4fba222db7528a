import TensorGraph.Session
import TensorGraph.Text.Printable

/-!
# Reports

What a session tells of its nodes, outputs and graphs: their state as records,
and short texts that name them.
-/

namespace TensorGraph

/-- The state of an output. -/
structure TensorReport where
  port : OutputPort
  type : TensorType
  names : List String
  consumers : List InputPort

/-- The state of a node; graphs are named by their handles. -/
structure NodeReport where
  id : NodeId
  name : String
  typeName : String
  role : Role
  sources : List OutputPort
  outputs : List TensorReport
  controlDependencies : List NodeId
  controlDependents : List NodeId
  memberOf : List String

/-- The state of a graph. -/
structure GraphReport where
  id : GraphId
  name : String
  parameters : List NodeId
  results : List NodeId
  sinks : List NodeId
  isFresh : Bool

namespace Network

def reportTensor (network : Network) (port : OutputPort) : TensorReport where
  port := port
  type := network.tensorType port
  names := network.tensorNames port
  consumers := network.consumers port

def reportOutputs (network : Network) (id : NodeId) : List TensorReport :=
  (network.outputPorts id).map network.reportTensor

def reportGraph (network : Network) (id : GraphId) : GraphReport :=
  let graph := network.graph id
  { id
    name := graph.name
    parameters := graph.parameters
    results := graph.results
    sinks := graph.sinks
    isFresh := graph.isFresh }

def inputPorts (network : Network) (id : NodeId) : List InputPort :=
  (List.range (network.sources id).length).map fun index => ⟨id, index⟩

end Network

namespace Session

/-- The handles of the graphs with the given numbers. -/
def graphHandles (session : Session) (ids : List GraphId) : List String :=
  ids.filterMap fun id => (session.graphs.entries.find? (·.2 = id)).map Prod.fst

/-- The state of a node, if it is alive. -/
def reportNode? (session : Session) (id : NodeId) : Option NodeReport :=
  (session.network.node? id).map fun node => {
    id
    name := node.name
    typeName := node.operator.typeName
    role := node.operator.role
    sources := node.sources
    outputs := session.network.reportOutputs id
    controlDependencies := node.controlDependencies
    controlDependents := node.controlDependents
    memberOf := session.graphHandles node.memberships }

/-- Whether the schedule of each graph is fresh, by handle. -/
def freshness (session : Session) : Table Bool :=
  session.graphs.map fun id => (session.network.graph id).isFresh

end Session

open Text (Record.render Record.field Record.numbered Record.truth Quoted.text Decimal.text
  bracketed)

/-- A node with the values of its fields. -/
def NodeLabel.recordText (label : NodeLabel) : String :=
  Record.render "Node" [
    Record.field "id" (Record.numbered "NodeId" label.id),
    Record.field "name" (Quoted.text label.name),
    Record.field "type" (Quoted.text label.typeName)]

/-- The name of the type of a port. -/
def PortSide.typeName : PortSide → String
  | output => "Output"
  | input => "Input"

/-- A port with the values of its fields. -/
def PortLabel.recordText (label : PortLabel) : String :=
  Record.render label.side.typeName [
    Record.field "node" (Record.numbered "NodeId" label.node.id),
    Record.field "index" (Decimal.text label.index)]

/-- A graph with the values of its fields. -/
def Graph.recordText (graph : Graph) : String :=
  let ids (nodes : List NodeId) : String := bracketed (nodes.map (Record.numbered "NodeId"))
  Record.render "Graph" [
    Record.field "name" (Quoted.text graph.name),
    Record.field "parameters" (ids graph.parameters),
    Record.field "results" (ids graph.results),
    Record.field "sinks" (ids graph.sinks),
    Record.field "use_topological_cache" (Record.truth graph.isFresh)]

/-- A node, its inputs and its outputs, each as messages name it and with the
values of its fields. -/
def Network.showNode (network : Network) (id : NodeId) : List String :=
  let node := network.label id
  let ports := (network.inputPorts id).map network.inputLabel ++
    (network.outputPorts id).map network.outputLabel
  node.text :: node.recordText :: ports.flatMap fun port => [port.text, port.recordText]

end TensorGraph
