import TensorGraph.Graph.Schedule
import TensorGraph.Network.Creation
import TensorGraph.Network.Lifetime

/-!
# Boundaries

Building a graph from the nodes that bound it, and adding nodes to its boundary
or removing them.  Each part of a boundary holds nodes of one role, none of them
twice.  A graph is built only if no cycle is within reach of its boundary and
every parameter within reach is declared.
-/

namespace TensorGraph

/-- The parts of the boundary of a graph. -/
inductive Boundary where
  | parameters
  | results
  | sinks
  deriving DecidableEq

namespace Boundary

def role : Boundary → Role
  | parameters => .parameter
  | results => .result
  | sinks => .sink

end Boundary

namespace Graph

def boundary (graph : Graph) : Boundary → List NodeId
  | .parameters => graph.parameters
  | .results => graph.results
  | .sinks => graph.sinks

def modifyBoundary (graph : Graph) (part : Boundary) (change : List NodeId → List NodeId) :
    Graph :=
  match part with
  | .parameters => { graph with parameters := change graph.parameters }
  | .results => { graph with results := change graph.results }
  | .sinks => { graph with sinks := change graph.sinks }

/-- The name of a graph that is given none. -/
def defaultName : String := "default_graph"

end Graph

namespace Network

/-- The incoming nodes have the role, and none of them is already present or
comes twice. -/
def checkBoundary (network : Network) (role : Role) (present : List NodeId) :
    List NodeId → Except GraphError Unit
  | [] => .ok ()
  | node :: incoming =>
      if network.role? node ≠ some role then
        .error (.invalidOperation (.wrongRole (network.label node) role))
      else if node ∈ present then
        .error (.invalidOperation (.alreadyPresent (network.label node)))
      else network.checkBoundary role (present ++ [node]) incoming

/-- Every parameter among the nodes is declared in the graph. -/
def checkDeclared (network : Network) (graph : Graph) (nodes : List NodeId) :
    Except GraphError Unit :=
  nodes.forM fun node =>
    if network.isParameter node ∧ node ∉ graph.parameters then
      .error (.undeclaredParameter (network.label node))
    else .ok ()

/-- A graph under the next number. -/
def addGraph (network : Network) (graph : Graph) : Network :=
  { network with graphs := network.graphs.push (.live graph) }

end Network

namespace Edit

/-- Every parameter in the schedule of a graph is declared in it. -/
def checkDeclared (id : GraphId) : Edit Unit := do
  let nodes ← schedule id
  ask fun network => network.checkDeclared (network.graph id) nodes

/-- Build a graph from its boundary. -/
def createGraph (results sinks parameters : List NodeId) : Edit GraphId := do
  ask (·.checkBoundary .result [] results)
  ask (·.checkBoundary .sink [] sinks)
  ask (·.checkBoundary .parameter [] parameters)
  let id := (← get).graphs.nextId
  change (·.addGraph { name := Graph.defaultName, parameters, results, sinks })
  undoing
    (do
      let _ ← schedule id
      checkDeclared id)
    (·.dropGraph id)
  report (.graphCreated Graph.defaultName results.length sinks.length parameters.length)
  return id

/-- The result that gives out an output: its own node if that is a result, and a
new one otherwise. -/
def resultFor (output : OutputPort) : Edit NodeId := do
  if (← get).isResult output.node then return output.node
  else create .result [output] none

/-- Build a graph that gives out the given outputs. -/
def createGraphFromOutputs (outputs : List OutputPort) (parameters : List NodeId) :
    Edit GraphId := do
  createGraph (← outputs.mapM resultFor) [] parameters

def addBoundary (part : Boundary) (id : GraphId) (nodes : List NodeId) : Edit Unit := do
  ask fun network => network.checkBoundary part.role ((network.graph id).boundary part) nodes
  change fun network =>
    (network.modifyGraph id (·.modifyBoundary part (· ++ nodes))).touchBoundary id

def removeBoundary (part : Boundary) (id : GraphId) (node : NodeId) : Edit Unit := do
  if node ∉ ((← get).graph id).boundary part then
    throw (.nodeNotFound node)
  change fun network =>
    (network.modifyGraph id (·.modifyBoundary part (·.erase node))).touchBoundary id

def renameGraph (id : GraphId) (name : String) : Edit Unit :=
  change (·.modifyGraph id ({ · with name }))

end Edit
end TensorGraph
