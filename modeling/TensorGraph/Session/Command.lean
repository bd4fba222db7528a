import TensorGraph.Session.Report

/-!
# Commands

What a session can be told to do and what it answers.  Commands name nodes and
ports by number, and graphs by handle since nothing but a handle holds a graph.
-/

namespace TensorGraph

/-- Something that a session can be told to do. -/
inductive Command where
  /-- Create a node, and hold it if a handle is given. -/
  | create (operator : Operator) (sources : List OutputPort) (name : Option String)
      (handle : GivenText)
  /-- Create rectifiers, each reading the one before, and hold the last if a
  handle is given; the answer of an empty chain is the node of the source, which
  is not held anew. -/
  | createChain (source : OutputPort) (length : Nat) (handle : GivenText)
  | inspectNode (node : NodeId)
  | showNode (node : NodeId)
  | renameNode (node : NodeId) (name : String)
  | inspectOutput (port : OutputPort)
  /-- Tell what an input reads, and hold the input if a handle is given. -/
  | inspectInput (input : InputPort) (handle : GivenText)
  | source (node : NodeId) (index : Nat)
  | outputElementType (node : NodeId) (index : Nat)
  | outputShape (node : NodeId) (index : Nat)
  /-- Count the different ones among some ports. -/
  | countDistinct (outputs : List OutputPort) (inputs : List InputPort)
  | setSource (input : InputPort) (source : OutputPort)
  | setSources (node : NodeId) (sources : List OutputPort)
  | replaceOutput (former replacement : OutputPort)
  | replaceNode (target replacement : NodeId)
  | addControlDependency (dependent dependency : NodeId)
  | removeControlDependency (dependent dependency : NodeId)
  | clearControlDependencies (dependent : NodeId)
  | inferNode (node : NodeId)
  | declareShape (node : NodeId) (shape : PartialShape)
  | declareElementType (node : NodeId) (elementType : ElementType)
  | setNames (port : OutputPort) (names : List String)
  | addNames (port : OutputPort) (names : List String)
  /-- Tell the names of a tensor, and which of the asked ones are among them. -/
  | names (port : OutputPort) (asked : List String)
  | dropNode (handle : String)
  | dropInput (handle : String)
  | sort (roots : List NodeId)
  /-- Create a graph, and hold it under a handle, which has to be given. -/
  | createGraph (results parameters sinks : List NodeId) (name handle : GivenText)
  /-- Create a graph that gives out some outputs, and hold it under a handle,
  which has to be given. -/
  | createGraphFromOutputs (outputs : List OutputPort) (parameters : List NodeId)
      (name handle : GivenText)
  | dropGraph (graph : String)
  | inspectGraph (graph : String)
  | showGraph (graph : String)
  | renameGraph (name : String) (graph : String)
  | addBoundary (part : Boundary) (nodes : List NodeId) (graph : String)
  | removeBoundary (part : Boundary) (node : NodeId) (graph : String)
  | boundaryPlaces (node : NodeId) (graph : String)
  /-- Tell the result at a place, and hold it if a handle is given. -/
  | holdResult (graph : String) (index : Nat) (handle : GivenText)
  | isMember (node : NodeId) (graph : String)
  /-- Hold what a graph shares with its nodes, if a handle is given. -/
  | holdInfo (graph : String) (handle : GivenText)
  /-- Hold what a graph shares with its nodes that is at a place among those which a
  node knows, if a handle is given. -/
  | holdMembership (node : NodeId) (index : Nat) (handle : GivenText)
  /-- Tell whether the schedule of a graph, dropped or not, is up to date. -/
  | isFresh (info : String)
  /-- Tell whether a node knows a graph, dropped or not. -/
  | knows (node : NodeId) (info : String)
  | dropInfo (handle : String)
  | schedule (graph : String)
  | isDynamic (graph : String)
  | validate (graph : String)
  | reshape (requests : List (ShapeTarget × PartialShape)) (graph : String)
  | boundaryPorts (part : Boundary) (graph : String)
  | boundaryPort (part : Boundary) (selector : PortSelector) (graph : String)
  /-- Give out a tensor, and hold its result if a handle is given. -/
  | addOutput (target : OutputTarget) (graph : String) (handle : GivenText)
  | describe (graph : String)
  | summarize (graph : String)
  /-- Tell the state of all that handles hold. -/
  | inspectAll

/-- What a session answers. -/
inductive Answer where
  | done
  | node (id : NodeId)
  | nodes (ids : List NodeId)
  | text (text : String)
  | texts (texts : List String)
  | truth (value : Bool)
  | port (port : OutputPort)
  | ports (ports : List OutputPort)
  | elementType (elementType : ElementType)
  | shape (shape : PartialShape)
  | counts (outputs inputs : Nat)
  /-- An output that is read, with its type. -/
  | connection (source : OutputPort) (type : TensorType)
  /-- The owner and the names of a tensor, and for each asked name whether it is
  among them. -/
  | naming (owner : OutputPort) (names : List String) (asked : List Bool)
  | nodeReport (report : NodeReport)
  | tensorReport (report : TensorReport)
  | tensorReports (reports : List TensorReport)
  | graphReport (report : GraphReport)
  /-- A schedule, and whether it is the one answered before. -/
  | schedule (ids : List NodeId) (isSame : Bool)
  /-- The places of a node among parameters and results. -/
  | places (parameter result : Option Nat)
  | all (nodes : Table NodeReport) (graphs : Table GraphReport)

end TensorGraph
