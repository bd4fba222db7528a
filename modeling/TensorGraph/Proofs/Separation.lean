import TensorGraph.Proofs.Invalidation

/-!
# Graphs that share nodes

A command that is given to one graph leaves every other graph exactly as it is, whatever
nodes the two have in common.  Scheduling and boundary edits change the record of the graph
they are given and the memberships in it; and which nodes know a graph follows from its
record, since they are those of its stored schedule.
-/

namespace TensorGraph

/-- The handle of the graph that a command is given to. -/
def Command.graphHandle? : Command → Option String
  | dropGraph graph | inspectGraph graph | showGraph graph | renameGraph _ graph
  | addBoundary _ _ graph | removeBoundary _ _ graph | boundaryPlaces _ graph
  | holdResult graph _ _ | isMember _ graph | holdInfo graph _ | schedule graph | isDynamic graph
  | validate graph | reshape _ graph | boundaryPorts _ graph | boundaryPort _ _ graph
  | addOutput _ graph _ | describe graph | summarize graph => some graph
  | _ => none

namespace Network

/-- The graph with the given number is exactly what it was. -/
def Spares (id : GraphId) (before after : Network) : Prop :=
  after.graph? id = before.graph? id

instance (id : GraphId) : IsPreorder Network (Spares id) where
  refl _ := rfl
  trans _ _ _ first second := Eq.trans second first

variable (network : Network) {id other : GraphId} (different : other ≠ id)

include different

theorem spares_modifyGraph (change : Graph → Graph) :
    Spares id network (network.modifyGraph other change) := by
  rw [Spares, graph?_modifyGraph, if_neg different]

theorem spares_modifyBoundary (part : Boundary) (change : List NodeId → List NodeId) :
    Spares id network
      ((network.modifyGraph other (·.modifyBoundary part change)).touchBoundary other) := by
  rw [Spares, graph?_modifyBoundary, if_neg different]

theorem spares_recordRoots : Spares id network (network.recordRoots other) :=
  network.spares_modifyGraph different _

theorem spares_storeSchedule (schedule : List NodeId) :
    Spares id network (network.storeSchedule other schedule) := by
  rw [Spares, graph?_storeSchedule, if_neg different]

theorem spares_dropGraph : Spares id network (network.dropGraph other) := by
  rw [Spares, graph?_dropGraph, if_neg different]

theorem spares_retireGraph : Spares id network (network.retireGraph other) := by
  rw [Spares, graph?_retireGraph, if_neg different]

end Network

namespace Edit

open Network

theorem Within.spares {α : Type} {edit : Edit α} (keeps : edit.Within KeepsGraphs)
    (id : GraphId) : edit.Within (Spares id) :=
  fun network => graph?_eq_of_graphs (keeps network) id

theorem nodeKeeping_spares (id : GraphId) : NodeKeeping (Spares id) where
  created _ _ _ := (nodeKeeping_keepsGraphs.created _ _ _).spares id
  inferred _ := (nodeKeeping_keepsGraphs.inferred _).spares id
  redeclared _ _ _ := (nodeKeeping_keepsGraphs.redeclared _ _ _).spares id
  renamed _ _ := (nodeKeeping_keepsGraphs.renamed _ _).spares id
  namesSet _ _ := (nodeKeeping_keepsGraphs.namesSet _ _).spares id
  namesAdded _ _ := (nodeKeeping_keepsGraphs.namesAdded _ _).spares id
  reported _ := (nodeKeeping_keepsGraphs.reported _).spares id

theorem spares_schedule {id other : GraphId} (different : other ≠ id) :
    (schedule other).Within (Spares id) :=
  within_schedule (spares_recordRoots · different) (spares_storeSchedule · different)

end Edit

namespace Action

open Network

variable {session : Session} {handle : String} {id other : GraphId}

/-- What follows the look-up of a graph is given the graph that the handle is bound to. -/
theorem spares_graph_bind {α : Type} {next : GraphId → Action α}
    (bound : session.graphs.get? handle = some other)
    (within : (next other).Within (Spares id)) :
    Spares id session.network ((graph handle >>= next).on session).2.network := by
  rw [on_bind, on_graph, bound]
  exact within session

theorem spares_onGraph {operation : GraphId → Edit Unit}
    (bound : session.graphs.get? handle = some other)
    (within : (operation other).Within (Spares id)) :
    Spares id session.network ((onGraph handle operation).on session).2.network :=
  spares_graph_bind bound (leads_edit_bind within fun _ => leads_pure _)

theorem spares_dropGraph (session : Session) (different : other ≠ id) :
    Spares id session.network (session.dropGraph other).network := by
  rw [Session.dropGraph]
  split
  · exact session.network.spares_retireGraph different
  · exact session.network.spares_dropGraph different

/-- To forget what a dropped graph shared with its nodes leaves every graph alone. -/
theorem spares_forgetInfo (id former : GraphId) :
    (change (·.forgetInfo former)).Within (Spares id) := by
  intro session
  rw [on_change, Session.Across, Session.forgetInfo, Spares]
  split
  · rfl
  next unbound =>
    rw [graph?_dropGraph]
    split
    next same =>
      subst same
      exact (Option.not_isSome_iff_eq_none.mp (not_or.mp unbound).1).symm
    · rfl

theorem spares_bindInfo (id held : GraphId) (handle : GivenText) :
    (bindInfo handle held).Within (Spares id) :=
  within_bindInfo (spares_forgetInfo id) handle held

/-- A command that is given to one graph leaves the record of another one alone. -/
theorem spares_perform {command : Command} (given : command.graphHandle? = some handle)
    (bound : session.graphs.get? handle = some other) (different : other ≠ id) :
    Spares id session.network ((perform command).on session).2.network := by
  have keeping := Edit.nodeKeeping_spares id
  have scheduled := Edit.spares_schedule different
  have bounded (part : Boundary) (network : Network) (change : List NodeId → List NodeId) :=
    network.spares_modifyBoundary different part change
  cases command with
  | dropGraph =>
      obtain rfl := Option.some.inj given
      have dropped : (dropGraph other).Within (Spares id) :=
        fun session => spares_dropGraph session different
      exact spares_graph_bind bound (dropped.bind fun _ =>
        leads_change_bind (fun _ => rfl) (fun _ => rfl) fun _ => leads_pure _)
  | inspectGraph | showGraph | boundaryPlaces | isMember | boundaryPorts =>
      obtain rfl := Option.some.inj given
      exact spares_graph_bind bound (leads_get.bind fun _ => leads_pure _)
  | renameGraph =>
      obtain rfl := Option.some.inj given
      exact spares_onGraph bound
        (Edit.within_change fun network => network.spares_modifyGraph different _)
  | addBoundary part nodes =>
      obtain rfl := Option.some.inj given
      exact spares_onGraph bound (Edit.within_addBoundary (bounded part) nodes)
  | removeBoundary part node =>
      obtain rfl := Option.some.inj given
      exact spares_onGraph bound (Edit.within_removeBoundary (bounded part) node)
  | holdResult =>
      obtain rfl := Option.some.inj given
      exact spares_graph_bind bound (leads_edit_bind (Edit.within_ask _) fun _ =>
        (leads_bindNode _ _).bind fun _ => leads_pure _)
  | holdInfo _ held =>
      obtain rfl := Option.some.inj given
      exact spares_graph_bind bound ((spares_bindInfo id other held).bind fun _ => leads_pure _)
  | schedule =>
      obtain rfl := Option.some.inj given
      exact spares_graph_bind bound (leads_edit_bind scheduled fun _ =>
        leads_get.bind fun _ =>
          leads_change_bind (fun _ => rfl) (fun _ => rfl) fun _ => leads_pure _)
  | isDynamic =>
      obtain rfl := Option.some.inj given
      exact spares_graph_bind bound
        (leads_edit_bind (Edit.within_isDynamic scheduled) fun _ => leads_pure _)
  | validate =>
      obtain rfl := Option.some.inj given
      exact spares_onGraph bound (keeping.validate scheduled)
  | reshape requests =>
      obtain rfl := Option.some.inj given
      exact spares_onGraph bound (keeping.reshape scheduled requests)
  | boundaryPort =>
      obtain rfl := Option.some.inj given
      exact spares_graph_bind bound
        (leads_edit_bind (Edit.within_ask _) fun _ => leads_pure _)
  | addOutput target =>
      obtain rfl := Option.some.inj given
      exact spares_graph_bind bound (leads_edit_bind
        (keeping.addOutput scheduled (fun network _ => bounded .results network _) target)
        fun _ => (leads_bindNode _ _).bind fun _ => leads_pure _)
  | describe =>
      obtain rfl := Option.some.inj given
      exact spares_graph_bind bound
        (leads_edit_bind (Edit.within_describe scheduled) fun _ => leads_pure _)
  | summarize =>
      obtain rfl := Option.some.inj given
      exact spares_graph_bind bound
        (leads_edit_bind (Edit.within_summarize scheduled) fun _ => leads_pure _)
  | _ => cases given

end Action

namespace Session

variable {session : Session}

/-- How often a node knows a graph can be told from the stored schedule of the graph. -/
theorem Reachable.count_memberships (reachable : session.Reachable) {id : GraphId}
    {graph : Graph} (found : session.network.graph? id = some graph) (node : NodeId) :
    (session.network.memberships node).count id = if node ∈ graph.schedule then 1 else 0 := by
  have coherent := reachable.coherent
  have knows_iff : id ∈ session.network.memberships node ↔ node ∈ graph.schedule :=
    coherent.knows_iff found
  split
  next scheduled =>
    exact List.count_eq_one_of_mem
      (coherent.memberships node (coherent.schedule id graph found node scheduled)).1
      (knows_iff.mpr scheduled)
  next absent => exact List.count_eq_zero.mpr (mt knows_iff.mp absent)

/-- A command that is given to one graph, whether it is answered or not, leaves any other graph
as it is: name, boundary, recorded roots, the stored schedule and its number, and whether it is
fresh; and every node knows the other graph as often as before. -/
theorem Reachable.other_graphs_undisturbed (reachable : session.Reachable) {command : Command}
    {handle : String} {id other : GraphId} {graph : Graph}
    (given : command.graphHandle? = some handle)
    (bound : session.graphs.get? handle = some other) (different : other ≠ id)
    (found : session.network.graph? id = some graph) :
    (session.step command).2.network.graph? id = some graph ∧
    ∀ node, ((session.step command).2.network.memberships node).count id =
      (session.network.memberships node).count id := by
  have spared : Network.Spares id session.network
      ((Action.perform command).on session.clearEvents).2.network :=
    Action.spares_perform given bound different
  have still : (session.step command).2.network.graph? id = some graph := by
    rw [graph?_step, spared, found]
  refine ⟨still, fun node => ?_⟩
  rw [(reachable.step command).count_memberships still, reachable.count_memberships found]

/-- The second of the graphs that share a parameter takes over the result of the first. -/
def overlapped : Session :=
  forked.run [.addBoundary .results [3] "right"]

theorem overlapped_reachable : overlapped.Reachable :=
  forked_reachable.run _

theorem graph?_overlapped :
    overlapped.network.graph? 1 = some {
      name := "default_graph"
      parameters := [1], results := [3], sinks := []
      schedule := [1, 2, 3], revision := 1, isFresh := true
      roster := [1, 2, 3], roots := [3, 1] } ∧
    overlapped.graphs.get? "right" = some 2 ∧
    (overlapped.network.memberships 2).count 1 = 1 ∧
    (overlapped.network.memberships 1).count 1 = 1 ∧
    (overlapped.step (.schedule "right")).1 = .ok (.schedule [1, 4, 2, 3] false) := by
  cbv

/-- Computing the schedule of the second graph makes every node a member of it, and a refused
edit of its boundary and dropping it do not show in the first graph either. -/
theorem memberships_overlapped :
    (overlapped.step (.schedule "right")).1 = .ok (.schedule [1, 4, 2, 3] false) ∧
    (overlapped.step (.schedule "right")).2.network.graph? 1 = overlapped.network.graph? 1 ∧
    ((overlapped.step (.schedule "right")).2.network.memberships 2).count 1 = 1 ∧
    (overlapped.step (.removeBoundary .sinks 2 "right")).2.network.graph? 1 =
      overlapped.network.graph? 1 ∧
    ((overlapped.step (.dropGraph "right")).2.network.memberships 1).count 1 = 1 := by
  obtain ⟨found, bound, ofRectifier, ofFeed, answers⟩ := graph?_overlapped
  have undisturbed {command : Command} (given : command.graphHandle? = some "right") :=
    overlapped_reachable.other_graphs_undisturbed given bound (by decide) found
  refine ⟨answers, ?_, ?_, ?_, ?_⟩
  · rw [(undisturbed rfl).1, found]
  · rw [(undisturbed rfl).2, ofRectifier]
  · rw [(undisturbed rfl).1, found]
  · rw [(undisturbed rfl).2, ofFeed]

end Session
end TensorGraph
