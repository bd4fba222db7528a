import TensorGraph.Network
import TensorGraph.Network.Marks

/-!
# Lifetime

A node lives as long as something holds it: a reference from outside, a live node
that depends on it, or a graph that has it in its boundary or in its schedule.
Nodes that hold each other in a cycle stay.  The ends of edges that only point
back, and what graphs share with their nodes, hold nothing.
-/

namespace TensorGraph

/-- The nodes that a graph holds. -/
def Graph.held (graph : Graph) : List NodeId :=
  graph.parameters ++ graph.results ++ graph.sinks ++ graph.schedule

/-- The nodes that are held under the number of a graph. -/
def GraphRecord.held : GraphRecord → List NodeId
  | live graph => graph.held
  | retained _ => []

/-- The node without its back references to nodes that do not stay. -/
def Node.prune (stays : NodeId → Bool) (node : Node) : Node :=
  { node with
    outputs := node.outputs.map fun tensor =>
      { tensor with consumers := tensor.consumers.filter (stays ·.node) }
    controlDependents := node.controlDependents.filter stays }

namespace Lifetime

/-- Look at a node of a sweep, given the nodes kept so far and how often each node
is held: a node that nothing holds is dropped and holds nothing any more. -/
def sweepNode (dependencies : Nat → List Nat) :
    List Nat × Array Nat → Nat → List Nat × Array Nat
  | (kept, holders), node =>
      if holders.getD node 0 = 0 then (kept, countLess holders (dependencies node))
      else (node :: kept, holders)

/-- Look at all nodes in turn, each held by the roots and by the nodes that were
not dropped before it. -/
def sweep (size : Nat) (dependencies : Nat → List Nat) (roots alive : List Nat) : List Nat :=
  let holders := counts size (roots ++ alive.flatMap dependencies)
  (alive.foldl (sweepNode dependencies) ([], holders)).1.reverse

/-- Drop the nodes that nothing holds until every node is held, by one of the
roots or by a node that stays. -/
def settle (size : Nat) (dependencies : Nat → List Nat) (roots alive : List Nat) : List Nat :=
  let kept := sweep size dependencies roots alive
  if kept.length < alive.length then settle size dependencies roots kept else alive
termination_by alive.length

end Lifetime

namespace Network

/-- Keep the given nodes only; back references to the others vanish. -/
def restrict (network : Network) (kept : Array Bool) : Network :=
  let stays (id : NodeId) : Bool := kept.getD id false
  { network with nodes := (network.nodes.restrict stays).mapValues (Node.prune stays) }

/-- Release a single node. -/
def discard (network : Network) (id : NodeId) : Network :=
  network.restrict (marks network.nodes.nextId (network.nodes.ids.erase id))

/-- The nodes that stay while the given ones are held from outside. -/
def survivors (network : Network) (held : List NodeId) : List NodeId :=
  Lifetime.settle network.nodes.nextId network.dependencies
    (held ++ network.graphs.values.flatMap GraphRecord.held) network.nodes.ids

/-- Release every node that nothing holds while the given ones are held from
outside. -/
def release (network : Network) (held : List NodeId) : Network :=
  let survivors := network.survivors held
  if survivors.length = network.nodes.ids.length then network
  else network.restrict (marks network.nodes.nextId survivors)

/-- Drop a graph, while what it shares with its nodes is still referred to.  The nodes
go on knowing it. -/
def retireGraph (network : Network) (id : GraphId) : Network :=
  { network with graphs := network.graphs.modify id fun record => .retained record.info }

/-- Remove a graph, or what is left of it; its members no longer know it. -/
def dropGraph (network : Network) (id : GraphId) : Network :=
  { network with
    graphs := network.graphs.erase id
    nodes := network.nodes.mapValues fun node =>
      { node with memberships := node.memberships.filter (· ≠ id) } }

end Network
end TensorGraph
