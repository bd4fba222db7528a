import TensorGraph.Event
import TensorGraph.Network.Store
import TensorGraph.Operator.Inference
import TensorGraph.Order.DepthFirst

/-!
# Networks

Nodes that read the outputs of other nodes, and graphs that bound parts of the
network.  A node knows the outputs that it reads and the nodes that it is
ordered after; the ends of those edges know the node in turn.  A graph knows its
boundary and the schedule that was last computed for it, and the nodes of that
schedule know the graph; what it shares with them may outlive it.
-/

namespace TensorGraph

/-- The number of a node. -/
abbrev NodeId := Nat

/-- The number of a graph. -/
abbrev GraphId := Nat

/-- One output of a node. -/
structure OutputPort where
  node : NodeId
  index : Nat
  deriving DecidableEq, Inhabited

/-- One input of a node. -/
structure InputPort where
  node : NodeId
  index : Nat
  deriving DecidableEq, Inhabited

/-- What an output of a node produces: its type as last inferred, its names in
ascending order, and the inputs that read it in the order in which they were
connected. -/
structure Tensor where
  type : TensorType
  names : List String
  consumers : List InputPort
  deriving DecidableEq, Inhabited

/-- A node: its sources are the outputs that it reads, one for each input. -/
structure Node where
  name : String
  operator : Operator
  sources : List OutputPort
  outputs : List Tensor
  controlDependencies : List NodeId
  controlDependents : List NodeId
  memberships : List GraphId
  deriving DecidableEq, Inhabited

/-- What a graph shares with its nodes: whether its schedule is known to be up to
date, the nodes that know the graph, and those from which a schedule has to
start. -/
structure GraphInfo where
  isFresh : Bool := false
  roster : List NodeId := []
  roots : List NodeId := []
  deriving DecidableEq, Inhabited

/-- A graph: its boundary, and the schedule that was last computed with how many
were computed before it. -/
structure Graph extends GraphInfo where
  name : String
  parameters : List NodeId
  results : List NodeId
  sinks : List NodeId
  schedule : List NodeId := []
  revision : Nat := 0
  deriving DecidableEq, Inhabited

/-- What there is under the number of a graph: the graph, or what it shared with its
nodes if it was dropped while that was still referred to. -/
inductive GraphRecord where
  | live (graph : Graph)
  | retained (info : GraphInfo)
  deriving DecidableEq, Inhabited

/-- Nodes and graphs by number, and the events reported so far. -/
structure Network where
  nodes : Store Node
  graphs : Store GraphRecord
  events : Array Event
  deriving Inhabited

namespace Node

/-- The node as messages name it. -/
def label (node : Node) (id : NodeId) : NodeLabel where
  id := id
  name := node.name
  typeName := node.operator.typeName

/-- The nodes that must come before the node: those that it reads, then those
that it is ordered after. -/
def dependencies (node : Node) : List NodeId :=
  node.sources.map (·.node) ++ node.controlDependencies

end Node

namespace Graph

/-- The nodes from which a schedule has to start. -/
def currentRoots (graph : Graph) : List NodeId :=
  graph.results ++ graph.sinks ++ graph.parameters

end Graph

namespace GraphRecord

def live? : GraphRecord → Option Graph
  | live graph => some graph
  | retained _ => none

def retained? : GraphRecord → Option GraphInfo
  | live _ => none
  | retained info => some info

def info : GraphRecord → GraphInfo
  | live graph => graph.toGraphInfo
  | retained info => info

/-- Change a graph that was not dropped. -/
def modifyLive (change : Graph → Graph) : GraphRecord → GraphRecord
  | live graph => live (change graph)
  | retained info => retained info

/-- Change what a graph shares with its nodes, whether or not it was dropped. -/
def modifyInfo (change : GraphInfo → GraphInfo) : GraphRecord → GraphRecord
  | live graph => live { graph with toGraphInfo := change graph.toGraphInfo }
  | retained info => retained (change info)

@[simp] theorem live?_modifyLive (record : GraphRecord) (change : Graph → Graph) :
    (record.modifyLive change).live? = record.live?.map change := by
  cases record <;> rfl

@[simp] theorem retained?_modifyLive (record : GraphRecord) (change : Graph → Graph) :
    (record.modifyLive change).retained? = record.retained? := by
  cases record <;> rfl

@[simp] theorem live?_modifyInfo (record : GraphRecord) (change : GraphInfo → GraphInfo) :
    (record.modifyInfo change).live? = record.live?.map fun graph =>
      { graph with toGraphInfo := change graph.toGraphInfo } := by
  cases record <;> rfl

@[simp] theorem retained?_modifyInfo (record : GraphRecord) (change : GraphInfo → GraphInfo) :
    (record.modifyInfo change).retained? = record.retained?.map change := by
  cases record <;> rfl

theorem modifyInfo_eq_self {record : GraphRecord} {change : GraphInfo → GraphInfo}
    (same : change record.info = record.info) : record.modifyInfo change = record := by
  cases record with
  | live graph =>
      rw [modifyInfo]
      exact congrArg (fun info => live { graph with toGraphInfo := info }) same
  | retained info => exact congrArg retained same

end GraphRecord

namespace Network

def empty : Network where
  nodes := .empty
  graphs := .empty
  events := #[]

/-- The node with the given number, if it is alive. -/
def node? (network : Network) (id : NodeId) : Option Node :=
  network.nodes.get? id

/-- The graph with the given number, if it was not dropped. -/
def graph? (network : Network) (id : GraphId) : Option Graph :=
  (network.graphs.get? id).bind GraphRecord.live?

/-- The graph with the given number; an empty one if there is none. -/
def graph (network : Network) (id : GraphId) : Graph :=
  (network.graph? id).getD default

/-- What is left of a dropped graph with the given number. -/
def retained? (network : Network) (id : GraphId) : Option GraphInfo :=
  (network.graphs.get? id).bind GraphRecord.retained?

/-- What a graph with the given number shares with its nodes, dropped or not. -/
def info? (network : Network) (id : GraphId) : Option GraphInfo :=
  (network.graphs.get? id).map GraphRecord.info

/-- What a graph with the given number shares with its nodes; nothing if there is no
such graph. -/
def info (network : Network) (id : GraphId) : GraphInfo :=
  (network.info? id).getD default

def modifyNode (network : Network) (id : NodeId) (change : Node → Node) : Network :=
  { network with nodes := network.nodes.modify id change }

def modifyGraph (network : Network) (id : GraphId) (change : Graph → Graph) : Network :=
  { network with graphs := network.graphs.modify id (GraphRecord.modifyLive change) }

def modifyInfo (network : Network) (id : GraphId) (change : GraphInfo → GraphInfo) : Network :=
  { network with graphs := network.graphs.modify id (GraphRecord.modifyInfo change) }

def report (network : Network) (event : Event) : Network :=
  { network with events := network.events.push event }

/-- What an output produces. -/
def tensor? (network : Network) (port : OutputPort) : Option Tensor :=
  (network.node? port.node).bind (·.outputs[port.index]?)

/-- Change what an output produces. -/
def modifyTensor (network : Network) (port : OutputPort) (change : Tensor → Tensor) : Network :=
  network.modifyNode port.node fun node =>
    { node with outputs := node.outputs.modify port.index change }

def outputCount (network : Network) (id : NodeId) : Nat :=
  (network.node? id).elim 0 (·.outputs.length)

def outputPorts (network : Network) (id : NodeId) : List OutputPort :=
  (List.range (network.outputCount id)).map fun index => ⟨id, index⟩

/-- The outputs that a node reads. -/
def sources (network : Network) (id : NodeId) : List OutputPort :=
  (network.node? id).elim [] (·.sources)

/-- The output that an input reads. -/
def source? (network : Network) (input : InputPort) : Option OutputPort :=
  (network.sources input.node)[input.index]?

/-- The type of an output as last inferred. -/
def tensorType (network : Network) (port : OutputPort) : TensorType :=
  (network.tensor? port).elim default (·.type)

/-- The inputs that read an output. -/
def consumers (network : Network) (port : OutputPort) : List InputPort :=
  (network.tensor? port).elim [] (·.consumers)

/-- The nodes that must come before a node. -/
def dependencies (network : Network) (id : NodeId) : List NodeId :=
  (network.node? id).elim [] (·.dependencies)

/-- The nodes that a node is ordered after without reading them. -/
def controlDependencies (network : Network) (id : NodeId) : List NodeId :=
  (network.node? id).elim [] (·.controlDependencies)

/-- The nodes that are ordered after a node without reading it. -/
def controlDependents (network : Network) (id : NodeId) : List NodeId :=
  (network.node? id).elim [] (·.controlDependents)

/-- The graphs that know a node as a member. -/
def memberships (network : Network) (id : NodeId) : List GraphId :=
  (network.node? id).elim [] (·.memberships)

/-- What a node does for a graph. -/
def role? (network : Network) (id : NodeId) : Option Role :=
  (network.node? id).map (·.operator.role)

def isResult (network : Network) (id : NodeId) : Bool :=
  network.role? id = some .result

def isParameter (network : Network) (id : NodeId) : Bool :=
  network.role? id = some .parameter

/-- A node as messages name it. -/
def label (network : Network) (id : NodeId) : NodeLabel :=
  (network.node? id).elim ⟨id, "", ""⟩ (·.label id)

/-- An output as messages name it. -/
def outputLabel (network : Network) (port : OutputPort) : PortLabel where
  node := network.label port.node
  side := .output
  index := port.index

def inputLabel (network : Network) (port : InputPort) : PortLabel where
  node := network.label port.node
  side := .input
  index := port.index

/-- One node must come before another, which reads it or is ordered after it. -/
def DependsOn (network : Network) (dependent dependency : NodeId) : Prop :=
  dependency ∈ network.dependencies dependent

/-- The live nodes that can be reached from the roots, each after its
dependencies; a node on a cycle if there is one within reach. -/
def order (network : Network) (roots : List NodeId) : Except GraphError (List NodeId) :=
  match DepthFirst.order network.nodes.nextId network.nodes.ids network.dependencies
    roots with
  | .ok nodes => .ok nodes
  | .error node => .error (.cycle (network.label node))

end Network

end TensorGraph
