import TensorGraph.Network.Marks
import TensorGraph.Network.Edit

/-!
# Schedules

The nodes of a graph in dependency order.  A schedule is computed only when the
stored one is not known to be up to date; the nodes that left the schedule then
forget the graph, and those that are new in it come to know it.
-/

namespace TensorGraph
namespace Network

/-- A node forgets a graph. -/
def leave (id : GraphId) (network : Network) (node : NodeId) : Network :=
  (network.modifyNode node fun node =>
      { node with memberships := node.memberships.filter (· ≠ id) }).report
    (.nodeLeft (network.graph id).name node)

/-- A node comes to know a graph. -/
def join (id : GraphId) (network : Network) (node : NodeId) : Network :=
  (network.modifyNode node fun node =>
      { node with memberships := node.memberships ++ [id] }).report
    (.nodeJoined (network.graph id).name node)

/-- Store a newly computed schedule of a graph, and tell the nodes that left or
joined it. -/
def storeSchedule (network : Network) (id : GraphId) (schedule : List NodeId) : Network :=
  let scheduled := marks network.nodes.nextId schedule
  let leaving := (network.graph id).roster.filter fun node => !scheduled.getD node false
  let afterLeaving := leaving.foldl (leave id) network
  let joining := schedule.filter (id ∉ afterLeaving.memberships ·)
  let afterJoining := joining.foldl (join id) afterLeaving
  let stored := afterJoining.modifyGraph id fun graph =>
    { graph with
      roster := schedule
      schedule := schedule
      revision := graph.revision + 1
      isFresh := true }
  stored.report (.scheduled (network.graph id).name schedule.length)

def recordRoots (network : Network) (id : GraphId) : Network :=
  network.modifyGraph id fun graph => { graph with roots := graph.currentRoots }

/-- The boundary of a graph has changed: its schedule is stale, and so are the
recorded roots. -/
def touchBoundary (network : Network) (id : GraphId) : Network :=
  let touched :=
    if (network.graph id).isFresh then
      (network.modifyGraph id ({ · with isFresh := false })).report
        (.boundaryChanged (network.graph id).name)
    else network
  touched.recordRoots id

end Network

namespace Edit

/-- The nodes of a graph in dependency order. -/
def schedule (id : GraphId) : Edit (List NodeId) := do
  let graph := (← get).graph id
  if graph.isFresh then
    return graph.schedule
  else
    change (·.recordRoots id)
    let schedule ← ask (·.order graph.currentRoots)
    change (·.storeSchedule id schedule)
    return schedule

end Edit
end TensorGraph
