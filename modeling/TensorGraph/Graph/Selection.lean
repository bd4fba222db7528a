import TensorGraph.Graph.Boundary
import TensorGraph.Network.Naming

/-!
# Selecting ports

Inputs and outputs of a graph by place, by name or as the only one, and giving
out a further tensor of the graph.
-/

namespace TensorGraph

/-- How a port of a graph is singled out. -/
inductive PortSelector where
  | only
  | place (index : Nat)
  | name (name : String)
  deriving DecidableEq

/-- How a tensor of a graph is singled out: by its name, by the name of its node
and the place among the outputs, or by its port. -/
inductive OutputTarget where
  | tensor (name : String)
  | node (name : String) (index : Nat)
  | port (port : OutputPort)
  deriving DecidableEq

namespace Network

def firstOutput (node : NodeId) : OutputPort :=
  ⟨node, 0⟩

/-- The port of the only node. -/
def onlyPort (role : Role) : List NodeId → Except GraphError OutputPort
  | [node] => .ok (firstOutput node)
  | nodes => .error (.ambiguousPort (.notSingle nodes.length role))

/-- The port of the node at a place. -/
def portAt (nodes : List NodeId) (index : Nat) : Except GraphError OutputPort :=
  match nodes[index]? with
  | some node => .ok (firstOutput node)
  | none => .error (.indexOutOfRange index nodes.length)

/-- The first port that gives out the tensor of the given name; refused if
another tensor has the name too. -/
def portNamed (network : Network) (nodes : List NodeId) (name : String) :
    Except GraphError OutputPort :=
  match (nodes.map firstOutput).filter (network.hasName · name) with
  | [] => .error (.nameNotFound name)
  | first :: others =>
      let owner := network.tensorOwner first
      match (others.map network.tensorOwner).find? (· ≠ owner) with
      | some other =>
          .error (.nameConflict (.found name (network.outputLabel owner)
            (network.outputLabel other)))
      | none => .ok first

/-- The selected port among those of one part of a boundary. -/
def select (network : Network) (part : Boundary) (graph : Graph) :
    PortSelector → Except GraphError OutputPort
  | .only => onlyPort part.role (graph.boundary part)
  | .place index => portAt (graph.boundary part) index
  | .name name => network.portNamed (graph.boundary part) name

/-- The outputs with the given name among those of nodes that are no results. -/
def portsNamed (network : Network) (nodes : List NodeId) (name : String) : List OutputPort :=
  (network.ownerPorts nodes).filter (network.hasName · name)

/-- The output that a target singles out among the given nodes. -/
def resolveTarget (network : Network) (nodes : List NodeId) :
    OutputTarget → Except GraphError OutputPort
  | .tensor name =>
      match network.portsNamed nodes name with
      | [] => .error (.nameNotFound name)
      | [port] => .ok port
      | _ => .error (.ambiguousPort (.tensorName name))
  | .node name index =>
      match nodes.filter fun node => (network.node? node).any (·.name = name) with
      | [] => .error (.nameNotFound name)
      | [node] =>
          if index < network.outputCount node then .ok ⟨node, index⟩
          else .error (.indexOutOfRange index (network.outputCount node))
      | _ => .error (.ambiguousPort (.nodeName name))
  | .port port =>
      if port.node ∈ nodes then .ok port else .error (.nodeNotFound port.node)

/-- The first of the results that reads the port; refused at a result that reads
nothing. -/
def reader? (network : Network) (port : OutputPort) :
    List NodeId → Except GraphError (Option NodeId)
  | [] => .ok none
  | result :: results =>
      match network.source? ⟨result, 0⟩ with
      | none => .error (.indexOutOfRange 0 0)
      | some source => if source = port then .ok (some result) else network.reader? port results

end Network

namespace Edit

/-- Give out a tensor of a graph: the port itself if it is a result's, the output
of a result of the graph that reads it already, or that of a new result. -/
def addOutput (id : GraphId) (target : OutputTarget) : Edit OutputPort := do
  let nodes ← schedule id
  let port ← ask (·.resolveTarget nodes target)
  if (← get).isResult port.node then
    return port
  match ← ask fun network => network.reader? port (network.graph id).results with
  | some result => return Network.firstOutput result
  | none =>
      let result ← create .result [port] none
      change fun network =>
        let extended := network.modifyGraph id fun graph =>
          { graph with results := graph.results ++ [result] }
        let touched := extended.touchBoundary id
        touched.report (.outputAdded (touched.graph id).name (touched.outputLabel port))
      return Network.firstOutput result

end Edit
end TensorGraph
