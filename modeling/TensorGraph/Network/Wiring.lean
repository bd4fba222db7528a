import TensorGraph.Network.Edit

/-!
# Data edges

Connecting inputs to the outputs that they read.  Every edge is known at both
ends: an input names its source, and the source lists its consumers.  An edit of
edges makes the schedules of all graphs stale that contain a node at one of their
ends.
-/

namespace TensorGraph
namespace Network

/-- Make the schedule of a graph stale on account of an edit of a node, whether or
not the graph was dropped. -/
def touchGraph (node : NodeId) (network : Network) (id : GraphId) : Network :=
  if (network.info id).isFresh then
    (network.modifyInfo id ({ · with isFresh := false })).report (.scheduleStale node id)
  else network

/-- Make the schedules of all graphs stale that know a node as a member. -/
def touchNode (network : Network) (node : NodeId) : Network :=
  (network.memberships node).foldl (touchGraph node) network

/-- Make the schedules of all graphs stale that know one of the nodes. -/
def touch (network : Network) (nodes : List NodeId) : Network :=
  nodes.foldl touchNode network

/-- List an input among the consumers of an output, at the end. -/
def connect (network : Network) (source : OutputPort) (input : InputPort) : Network :=
  network.modifyTensor source fun tensor =>
    { tensor with consumers := tensor.consumers ++ [input] }

def disconnect (network : Network) (source : OutputPort) (input : InputPort) : Network :=
  network.modifyTensor source fun tensor =>
    { tensor with consumers := tensor.consumers.filter (· ≠ input) }

/-- The inputs of a node in order, each with the source at its place. -/
def edges (node : NodeId) (sources : List OutputPort) : List (OutputPort × InputPort) :=
  sources.mapIdx fun index source => (source, ⟨node, index⟩)

/-- List the inputs of a node among the consumers of the given sources. -/
def connectAll (network : Network) (node : NodeId) (sources : List OutputPort) : Network :=
  (edges node sources).foldl (fun network (source, input) => network.connect source input) network

/-- Remove the inputs of a node from the consumers of the given sources. -/
def disconnectAll (network : Network) (node : NodeId) (sources : List OutputPort) : Network :=
  (edges node sources).foldl (fun network (source, input) => network.disconnect source input)
    network

/-- Make an input read another output than the one it reads now. -/
def rewire (network : Network) (input : InputPort) (former source : OutputPort) : Network :=
  let renamed := network.modifyNode input.node fun node =>
    { node with sources := node.sources.set input.index source }
  ((renamed.disconnect former input).connect source input).touch
    [input.node, former.node, source.node]

/-- Make the inputs of a node read the given outputs, one each. -/
def rewireAll (network : Network) (id : NodeId) (former sources : List OutputPort) : Network :=
  let renamed := network.modifyNode id ({ · with sources := sources })
  ((renamed.disconnectAll id former).connectAll id sources).touch
    (id :: (former.map (·.node) ++ sources.map (·.node)))

end Network

namespace Edit

/-- Make an input read the given output. -/
def setSource (input : InputPort) (source : OutputPort) : Edit Unit := do
  checkPort source
  let former ← Edit.source input
  change (·.rewire input former source)

/-- Make a node read the given outputs instead of all that it reads now; their
number may differ. -/
def setSources (id : NodeId) (sources : List OutputPort) : Edit Unit := do
  sources.forM checkPort
  let node ← node id
  change (·.rewireAll id node.sources sources)

/-- Make the consumers of an output read another one.  The inputs of the other
output's own node stay as they are, so that it does not come to read itself. -/
def replaceOutput (former replacement : OutputPort) : Edit Unit := do
  checkPort replacement
  if former ≠ replacement then
    let consumers := (← get).consumers former
    (consumers.filter (·.node ≠ replacement.node)).forM (setSource · replacement)
    change (·.touch [former.node, replacement.node])

end Edit
end TensorGraph
