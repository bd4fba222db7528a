import TensorGraph.Proofs.Invalidation
import TensorGraph.Proofs.Newcomers
import TensorGraph.Proofs.Retention

/-!
# The log tells what happens to schedules

An edit of nodes may touch a graph many times, on account of several nodes and in several of the
edits that it is made of, but only the first touch finds the schedule fresh.  The log therefore
names each graph once whose schedule turns stale, and no other.  A graph that was dropped is named
as well while what it shared with its nodes is still referred to, because they still know it.  When
a schedule is stored, the nodes that forget the graph are those that the former schedule alone
contains, because the roster of the graph is that schedule; the nodes that come to know it are
those that the new schedule alone contains, because the others know it already.
-/

namespace TensorGraph

/-- What is reported when the nodes become the schedule of a graph. -/
def Graph.turnover (graph : Graph) (nodes : List NodeId) : List Event :=
  (graph.schedule.filter (· ∉ nodes)).map (.nodeLeft graph.name) ++
    (nodes.filter (· ∉ graph.schedule)).map (.nodeJoined graph.name) ++
    [.scheduled graph.name nodes.length]

namespace Network

/-- The events that are reported on the way from one network to the other. -/
def Reports (events : List Event) (before after : Network) : Prop :=
  after.events.toList = before.events.toList ++ events

/-- The graph is fresh at first and stale afterwards. -/
def TurnsStale (id : GraphId) (before after : Network) : Prop :=
  ∃ graph later, before.graph? id = some graph ∧ graph.isFresh ∧
    after.graph? id = some later ∧ later.isFresh = false

/-- What is left of a dropped graph is fresh at first and stale afterwards. -/
def RemainsTurnStale (id : GraphId) (before after : Network) : Prop :=
  ∃ info later, before.retained? id = some info ∧ info.isFresh ∧
    after.retained? id = some later ∧ later.isFresh = false

theorem RemainsTurnStale.graph?_eq_none {id : GraphId} {before after : Network}
    (remains : RemainsTurnStale id before after) : before.graph? id = none := by
  obtain ⟨info, -, found, -⟩ := remains
  exact graph?_eq_none_of_retained? found

/-- Only what is there can be fresh, be it a graph or what is left of one. -/
theorem isFresh_info_iff {network : Network} {id : GraphId} :
    (network.info id).isFresh ↔
      (∃ graph, network.graph? id = some graph ∧ graph.isFresh) ∨
      ∃ info, network.retained? id = some info ∧ info.isFresh := by
  rw [Network.info, info?, graph?, retained?]
  rcases network.graphs.get? id with _ | ⟨graph | info⟩
  · exact iff_of_false (fun isFresh => by cases isFresh) (by simp)
  · exact iff_of_eq (by simp [GraphRecord.info, GraphRecord.live?, GraphRecord.retained?])
  · exact iff_of_eq (by simp [GraphRecord.info, GraphRecord.live?, GraphRecord.retained?])

section Reports

variable {before between after : Network} {events others : List Event}

theorem Reports.of_same (same : after.events = before.events) : Reports [] before after := by
  rw [Reports, same, List.append_nil]

theorem Reports.trans (first : Reports events before between)
    (second : Reports others between after) : Reports (events ++ others) before after :=
  calc
    after.events.toList = between.events.toList ++ others := second
    _ = before.events.toList ++ events ++ others := congrArg (· ++ others) first
    _ = before.events.toList ++ (events ++ others) := List.append_assoc ..

theorem reports_report (network : Network) (event : Event) :
    Reports [event] network (network.report event) :=
  Array.toList_push

theorem events_release (network : Network) (held : List NodeId) :
    (network.release held).events = network.events := by
  rw [release]
  split <;> rfl

/-- A chain of changes that leave a graph as it is, each of which reports an event about it. -/
theorem reports_foldl {β : Type} {id : GraphId} (change : Network → β → Network)
    (event : String → β → Event)
    (keeps : ∀ network item, (change network item).graph id = network.graph id)
    (each : ∀ network item,
      Reports [event (network.graph id).name item] network (change network item))
    (items : List β) (network : Network) :
    Reports (items.map (event (network.graph id).name)) network (items.foldl change network) := by
  induction items generalizing network with
  | nil => exact .of_same rfl
  | cons item items ih =>
      have rest := ih (change network item)
      rw [keeps] at rest
      exact (each network item).trans rest

end Reports

/-- Every graph that a pair names on the right turns stale, on account of the node on the left,
which knows the graph.  All of them are fresh at first and none is named twice; one event for
each is all that is reported, and nothing else changes about graphs and about who knows them. -/
structure Announces (stale : List (NodeId × GraphId)) (before after : Network) : Prop where
  memberships : ∀ node, after.memberships node = before.memberships node
  graphs : ∀ id, after.graphs.get? id = (before.graphs.get? id).map fun record =>
    if id ∈ stale.map Prod.snd then record.stale else record
  events : Reports (stale.map fun turn => .scheduleStale turn.1 turn.2) before after
  nodup : (stale.map Prod.snd).Nodup
  fresh : ∀ turn ∈ stale, (before.info turn.2).isFresh
  known : ∀ turn ∈ stale, turn.2 ∈ before.memberships turn.1

namespace Announces

variable {before between after : Network} {stale others : List (NodeId × GraphId)}

theorem of_same (memberships : ∀ node, after.memberships node = before.memberships node)
    (graphs : after.graphs = before.graphs) (events : after.events = before.events) :
    Announces [] before after where
  memberships := memberships
  graphs id := by simp [graphs]
  events := .of_same events
  nodup := List.nodup_nil
  fresh _ member := absurd member List.not_mem_nil
  known _ member := absurd member List.not_mem_nil

theorem isFresh_iff (announces : Announces stale before after) {id : GraphId} :
    (after.info id).isFresh ↔ (before.info id).isFresh ∧ id ∉ stale.map Prod.snd := by
  rw [Network.info, info?, announces.graphs, Network.info, info?]
  cases before.graphs.get? id with
  | none => exact iff_of_false (fun isFresh => by cases isFresh) fun both => by cases both.1
  | some record =>
      by_cases turned : id ∈ stale.map Prod.snd
      · cases record <;> simp [turned, GraphRecord.stale, GraphRecord.modifyInfo, GraphRecord.info]
      · simp [turned]

/-- What turns stale later was fresh in between, and so did not turn stale before. -/
theorem trans (first : Announces stale before between) (second : Announces others between after) :
    Announces (stale ++ others) before after where
  memberships node := (second.memberships node).trans (first.memberships node)
  graphs id := by
    rw [second.graphs, first.graphs, Option.map_map, List.map_append]
    congr 1
    funext record
    by_cases now : id ∈ stale.map Prod.snd <;> by_cases later : id ∈ others.map Prod.snd <;>
      simp [now, later]
  events := by
    rw [List.map_append]
    exact first.events.trans second.events
  nodup := by
    rw [List.map_append]
    refine first.nodup.append second.nodup fun id now later => ?_
    obtain ⟨turn, member, rfl⟩ := List.mem_map.mp later
    exact (first.isFresh_iff.mp (second.fresh turn member)).2 now
  fresh turn member := by
    rcases List.mem_append.mp member with now | later
    · exact first.fresh turn now
    · exact (first.isFresh_iff.mp (second.fresh turn later)).1
  known turn member := by
    rcases List.mem_append.mp member with now | later
    · exact first.known turn now
    · exact first.memberships turn.1 ▸ second.known turn later

theorem mem_iff (announces : Announces stale before after) {id : GraphId} :
    id ∈ stale.map Prod.snd ↔ TurnsStale id before after ∨ RemainsTurnStale id before after := by
  have graphs := graph?_of_stale (announces.graphs id)
  have remains := retained?_of_stale (announces.graphs id)
  constructor
  · intro turned
    obtain ⟨turn, member, rfl⟩ := List.mem_map.mp turned
    rcases isFresh_info_iff.mp (announces.fresh turn member) with
      ⟨graph, found, isFresh⟩ | ⟨info, found, isFresh⟩
    · rw [found, Option.map_some, if_pos turned] at graphs
      exact Or.inl ⟨graph, _, found, isFresh, graphs, rfl⟩
    · rw [found, Option.map_some, if_pos turned] at remains
      exact Or.inr ⟨info, _, found, isFresh, remains, rfl⟩
  · intro turns
    by_contra untold
    rcases turns with ⟨graph, later, found, isFresh, still, isStale⟩ |
      ⟨info, later, found, isFresh, still, isStale⟩
    · rw [found, Option.map_some, if_neg untold, still] at graphs
      rw [Option.some.inj graphs, isFresh] at isStale
      cases isStale
    · rw [found, Option.map_some, if_neg untold, still] at remains
      rw [Option.some.inj remains, isFresh] at isStale
      cases isStale

end Announces

/-- The log announces the graphs that turn stale, and nothing else happens to graphs. -/
def Announced (before after : Network) : Prop :=
  ∃ stale, Announces stale before after

instance : IsPreorder Network Announced where
  refl _ := ⟨[], .of_same (fun _ => rfl) rfl rfl⟩
  trans _ _ _ := fun ⟨_, first⟩ ⟨_, second⟩ => ⟨_, first.trans second⟩

section Touched

variable {network : Network}

theorem announced_touchGraph {node : NodeId} {id : GraphId}
    (knows : id ∈ network.memberships node) : Announced network (touchGraph node network id) := by
  by_cases isFresh : (network.info id).isFresh
  · refine ⟨[(node, id)],
      { memberships := fun other => ?_, graphs := fun other => ?_, events := ?_,
        nodup := List.nodup_singleton id, fresh := ?_, known := ?_ }⟩
    · rw [memberships, node?_touchGraph, memberships]
    · simp [get?_touchGraph]
    · rw [touchGraph, if_pos isFresh]
      exact reports_report _ _
    · simpa using isFresh
    · simpa using knows
  · rw [touchGraph, if_neg isFresh]
    exact refl_of Announced network

theorem announced_foldl_touchGraph {node : NodeId} {ids : List GraphId}
    (known : ∀ id ∈ ids, id ∈ network.memberships node) :
    Announced network (ids.foldl (touchGraph node) network) := by
  induction ids generalizing network with
  | nil => exact refl_of Announced network
  | cons id ids ih =>
      obtain ⟨now, later⟩ := List.forall_mem_cons.mp known
      obtain ⟨stale, announces⟩ := announced_touchGraph now
      refine trans_of Announced ⟨stale, announces⟩ (ih fun other member => ?_)
      rw [announces.memberships]
      exact later other member

theorem announced_touch (network : Network) (nodes : List NodeId) :
    Announced network (network.touch nodes) := by
  rw [touch]
  induction nodes generalizing network with
  | nil => exact refl_of Announced network
  | cons node nodes ih =>
      exact trans_of Announced (announced_foldl_touchGraph fun _ member => member) (ih _)

theorem announced_modifyNode (network : Network) (id : NodeId) {change : Node → Node}
    (same : ∀ node, (change node).memberships = node.memberships) :
    Announced network (network.modifyNode id change) :=
  have agree : Agree Node.memberships network (network.modifyNode id change) :=
    network.agree_modifyNode id same
  ⟨[], .of_same (fun node => agree.elim_eq node []) rfl rfl⟩

/-- A change that graphs and the log do not show, followed by a touch. -/
theorem Touches.announced {nodes : List NodeId} {before after : Network}
    (touches : Touches nodes before after) : Announced before after := by
  obtain ⟨between, memberships, same, rfl⟩ := touches
  refine trans_of Announced ⟨[], .of_same (fun node => ?_) (congrArg Prod.fst same)
    (congrArg Prod.snd same)⟩ (between.announced_touch nodes)
  exact memberships.elim_eq node []

theorem edgeEditing_announced : Edit.EdgeEditing Announced :=
  .of_touches Touches.announced

end Touched

section Boundaries

variable (network : Network) (id : GraphId)

theorem reports_touchBoundary :
    Reports (if (network.graph id).isFresh then [.boundaryChanged (network.graph id).name] else [])
      network (network.touchBoundary id) := by
  rw [touchBoundary]
  split
  · exact reports_report _ _
  · exact .of_same rfl

theorem reports_modifyBoundary (part : Boundary) (change : List NodeId → List NodeId) :
    Reports (if (network.graph id).isFresh then [.boundaryChanged (network.graph id).name] else [])
      network
      ((network.modifyGraph id (·.modifyBoundary part change)).touchBoundary id) := by
  let modified := network.modifyGraph id (·.modifyBoundary part change)
  have same : (modified.graph id).isFresh = (network.graph id).isFresh ∧
      (modified.graph id).name = (network.graph id).name := by
    rw [Network.graph, graph?_modifyGraph, if_pos rfl, Network.graph]
    cases network.graph? id with
    | none => exact ⟨rfl, rfl⟩
    | some graph => cases part <;> exact ⟨rfl, rfl⟩
  have reported : Reports _ modified (modified.touchBoundary id) :=
    modified.reports_touchBoundary id
  rw [same.1, same.2] at reported
  exact reported

/-- A result that enters the boundary of a fresh graph makes it stale, which is told first. -/
theorem reports_extended {network : Network} {id : GraphId} {graph : Graph}
    (found : network.graph? id = some graph) (isFresh : graph.isFresh) (result : NodeId)
    (label : PortLabel) :
    let touched := (network.modifyGraph id
      (·.modifyBoundary .results (· ++ [result]))).touchBoundary id
    Reports [.boundaryChanged graph.name, .outputAdded graph.name label] network
      (touched.report (.outputAdded (touched.graph id).name label)) := by
  intro touched
  have told := network.reports_modifyBoundary id .results (· ++ [result])
  have named : (touched.graph id).name = graph.name := by
    rw [Network.graph, graph?_modifyBoundary, if_pos rfl, found]
    rfl
  rw [graph_of_graph? found, if_pos isFresh] at told
  rw [named]
  exact told.trans (reports_report _ _)

/-- Giving out a port of a fresh graph through a new result makes the graph stale. -/
theorem reports_withOutput {network : Network} {id : GraphId} {graph : Graph}
    (found : network.graph? id = some graph) (isFresh : graph.isFresh) (port : OutputPort) :
    TurnsStale id network (network.withOutput id port) ∧ ∃ label,
      Reports [.boundaryChanged (network.graph id).name, .outputAdded (network.graph id).name label]
        network (network.withOutput id port) := by
  have later : (network.withOutput id port).graph? id =
      some (graph.withResult network.nodes.nextId) := by
    rw [graph?_withOutput, if_pos rfl, found, Option.map_some]
  refine ⟨⟨graph, _, found, isFresh, later, rfl⟩, ?_⟩
  obtain ⟨extended, made⟩ : ∃ extended, extended = network.addNode
      (defaultName .result network.nodes.nextId) .result [port] [network.tensorType port] :=
    ⟨_, rfl⟩
  have added : extended.graph? id = some graph := by rw [made, graph?_addNode, found]
  have unsaid : Reports [] network extended := .of_same (by rw [made, events_addNode])
  rw [withOutput, graph_of_graph? found, ← made]
  exact ⟨_, unsaid.trans (reports_extended added isFresh _ _)⟩

end Boundaries

section Schedules

variable {network : Network} {id : GraphId} {graph : Graph}

/-- The roster is the stored schedule, so the nodes that leave are those that it alone contains. -/
theorem filter_leaving (coherent : network.Coherent) (found : network.graph? id = some graph)
    (nodes : List NodeId) :
    ((network.graph id).roster.filter fun node =>
      !(marks network.nodes.nextId nodes).getD node false) =
      graph.schedule.filter (· ∉ nodes) := by
  rw [graph_of_graph? found, coherent.roster id graph found]
  refine List.filter_congr fun node member => ?_
  obtain ⟨stored, alive⟩ := coherent.schedule id graph found node member
  have marked := getD_marks network.nodes.nextId nodes node
  rw [and_iff_right (Store.lt_nextId alive)] at marked
  by_cases listed : node ∈ nodes <;> simp_all

/-- No node of the new schedule has left, so those that join are those that were not in the stored
one. -/
theorem filter_joining (coherent : network.Coherent) (found : network.graph? id = some graph)
    (nodes : List NodeId) :
    nodes.filter (fun node =>
      id ∉ ((graph.schedule.filter (· ∉ nodes)).foldl (leave id) network).memberships node) =
      nodes.filter (· ∉ graph.schedule) := by
  refine List.filter_congr fun node member => ?_
  have stays : node ∉ graph.schedule.filter (· ∉ nodes) := by simp [member]
  simp only [memberships_leaveAll, if_neg stays, coherent.knows_iff found]

theorem reports_leaveAll (network : Network) (id : GraphId) (nodes : List NodeId) :
    Reports (nodes.map (.nodeLeft (network.graph id).name)) network
      (nodes.foldl (leave id) network) := by
  refine reports_foldl (leave id) .nodeLeft (fun _ _ => rfl) (fun network node => ?_) nodes network
  exact (network.modifyNode node _).reports_report (.nodeLeft (network.graph id).name node)

theorem reports_joinAll (network : Network) (id : GraphId) (nodes : List NodeId) :
    Reports (nodes.map (.nodeJoined (network.graph id).name)) network
      (nodes.foldl (join id) network) := by
  refine reports_foldl (join id) .nodeJoined (fun _ _ => rfl) (fun network node => ?_) nodes network
  exact (network.modifyNode node _).reports_report (.nodeJoined (network.graph id).name node)

/-- The nodes that forget a graph, and those that come to know it, are told in the order of the
schedule that alone contains them. -/
theorem reports_storeSchedule (coherent : network.Coherent)
    (found : network.graph? id = some graph) (nodes : List NodeId) :
    Reports (graph.turnover nodes) network (network.storeSchedule id nodes) := by
  have left := network.reports_leaveAll id (graph.schedule.filter (· ∉ nodes))
  let after := (graph.schedule.filter (· ∉ nodes)).foldl (leave id) network
  have joined := after.reports_joinAll id (nodes.filter (· ∉ graph.schedule))
  have stays : after.graph id = graph := by
    rw [Network.graph, graph?_leaveAll, found, Option.getD_some]
  rw [graph_of_graph? found] at left
  rw [stays] at joined
  rw [storeSchedule, filter_leaving coherent found, filter_joining coherent found,
    graph_of_graph? found]
  exact (left.trans joined).trans (reports_report _ _)

end Schedules

end Network

namespace Edit

open Network

variable {network : Network} {id : GraphId} {graph : Graph}

/-- A schedule that is computed anew is told by the nodes that leave and those that join; one that
is fresh, or that a cycle prevents, by nothing. -/
theorem reports_schedule (coherent : network.Coherent) (found : network.graph? id = some graph)
    {outcome : Except GraphError (List NodeId)} {after : Network}
    (asked : (schedule id).on network = (outcome, after)) :
    (∀ nodes, outcome = .ok nodes →
      Reports (if graph.isFresh then [] else graph.turnover nodes) network after) ∧
    ∀ error, outcome = .error error → Reports [] network after := by
  rw [on_schedule, graph_of_graph? found] at asked
  by_cases isFresh : graph.isFresh
  · rw [if_pos isFresh] at asked
    obtain ⟨rfl, rfl⟩ := Prod.mk.inj asked
    refine ⟨fun nodes _ => ?_, fun error failed => by cases failed⟩
    rw [if_pos isFresh]
    exact .of_same rfl
  rw [if_neg isFresh] at asked
  cases ordered : network.order graph.currentRoots with
  | error error =>
      rw [ordered] at asked
      obtain ⟨rfl, rfl⟩ := Prod.mk.inj asked
      exact ⟨fun nodes answered => (by cases answered), fun _ _ => .of_same rfl⟩
  | ok nodes =>
      rw [ordered] at asked
      obtain ⟨rfl, rfl⟩ := Prod.mk.inj asked
      refine ⟨fun others same => ?_, fun error failed => by cases failed⟩
      obtain rfl := Except.ok.inj same
      have recorded : (network.recordRoots id).graph? id =
          some { graph with roots := graph.currentRoots } := by
        rw [graph?_recordRoots, if_pos rfl, found, Option.map_some]
      rw [if_neg isFresh]
      exact reports_storeSchedule (coherent.of_move .rootsRecorded) recorded nodes

/-- Giving out a tensor finds the graph fresh, because its schedule has just been asked for.  It
changes nothing, or a new result makes the graph stale, which is told before the result is. -/
theorem reports_addOutput (found : network.graph? id = some graph) (target : OutputTarget)
    {scheduled after : Network} (asked : ((schedule id).on network).2 = scheduled)
    (given : ((addOutput id target).on network).2 = after) :
    after = scheduled ∨ TurnsStale id scheduled after ∧ ∃ label,
      Reports [.boundaryChanged (scheduled.graph id).name,
        .outputAdded (scheduled.graph id).name label] scheduled after := by
  rcases on_addOutput_cases id target network with
    ⟨error, refused⟩ | ⟨nodes, between, port, output, _, ordered, -, gives, outcome⟩
  · exact Or.inl (by rw [← given, refused, asked])
  rw [outcome] at given
  rw [ordered] at asked
  obtain rfl : between = scheduled := asked
  cases gives with
  | itself _ => exact Or.inl given.symm
  | read _ _ => exact Or.inl given.symm
  | added _ _ _ =>
      obtain ⟨later, still, isFresh, -⟩ := graph?_of_on_schedule found ordered
      rw [← given]
      exact Or.inr (reports_withOutput still isFresh port)

end Edit

namespace Mutation

open Network

/-- Whether or not it is accepted, an edit of nodes announces the graphs that it makes stale. -/
theorem announced_edit {mutation : Mutation} (inner : mutation.bounded? = none) :
    mutation.edit.Within Announced := by
  have keeping := edgeEditing_announced
  have redeclared (node : NodeId) (update : TensorType → TensorType)
      (refusal : NodeLabel → Misuse) : (Edit.redeclare node update refusal).Within Announced :=
    Edit.within_redeclare (fun network _ => network.announced_modifyNode node fun _ => rfl) refusal
  have renamed (port : OutputPort) (given : NameSet) (update : NameSet → NameSet) :
      (Edit.updateNames port given update).Within Announced :=
    Edit.within_updateNames
      (fun network owner => network.announced_modifyNode owner.node fun _ => rfl) port given
  cases mutation with
  | setSource input source => exact keeping.setSource input source
  | setSources node sources => exact keeping.setSources node sources
  | replaceOutput former replacement => exact keeping.replaceOutput former replacement
  | replaceNode target replacement => exact keeping.replaceNode target replacement
  | addControlDependency dependent dependency =>
      exact keeping.addControlDependency dependent dependency
  | removeControlDependency dependent dependency =>
      exact (keeping.removeControlDependency dependent dependency).bind fun _ => Edit.within_pure ()
  | clearControlDependencies dependent => exact keeping.clearControlDependencies dependent
  | inferNode node =>
      exact Edit.within_inferNode fun network _ => network.announced_modifyNode node fun _ => rfl
  | declareShape node shape => exact redeclared node ({ · with shape }) .shapeOfNonParameter
  | declareElementType node elementType =>
      exact redeclared node ({ · with elementType }) .typeOfNonParameter
  | setNames port names => exact renamed port (.ofList names) fun _ => .ofList names
  | addNames port names => exact renamed port (.ofList names) (·.union (.ofList names))
  | addBoundary _ _ _ | removeBoundary _ _ _ => cases inner

end Mutation

namespace Session

open Network

variable {session : Session}

/-- The events of a command are those that its mutation reports. -/
theorem events_step_of_asks {command : Command} {mutation : Mutation} {events : List Event}
    (asks : session.mutation? command = some mutation)
    (told : Reports events session.clearEvents.network
      (mutation.edit.on session.clearEvents.network).2) :
    (session.step command).2.network.events.toList = events := by
  rcases step_of_asks asks with
    ⟨error, network, outcome, stepped⟩ | ⟨answer, network, outcome, stepped⟩ <;>
    rw [outcome] at told <;> rw [stepped] <;>
    exact (congrArg Array.toList (network.events_release _)).trans told

/-- Two graphs with results of their own share a rectifier, and another one reads the same
parameter.  A third graph was dropped, but what it shared with its nodes is still held. -/
def shared : Session :=
  empty.run [
    .create (.parameter { elementType := .f32, shape := .fixed [2, 3] }) [] none (.text "feed"),
    .create .relu [⟨1, 0⟩] none (.text "gate"),
    .create .relu [⟨1, 0⟩] none (.text "spare"),
    .create .result [⟨2, 0⟩] none (.text "long"),
    .create .result [⟨2, 0⟩] none (.text "short"),
    .createGraph [4] [1] [] .absent (.text "left"),
    .createGraph [5] [1] [] .absent (.text "right"),
    .createGraph [5] [1] [] .absent (.text "former"),
    .holdInfo "former" (.text "remains"),
    .dropGraph "former"]

theorem shared_reachable : shared.Reachable :=
  ⟨_, rfl⟩

theorem events_shared :
    ((Edit.replaceNode 2 3).on shared.network).2.events.toList =
      shared.network.events.toList ++
        [.scheduleStale 4 1, .scheduleStale 2 2, .scheduleStale 2 3] ∧
    shared.network.graph? 1 = some {
      name := "default_graph"
      parameters := [1], results := [4], sinks := []
      schedule := [1, 2, 4], revision := 1, isFresh := true
      roster := [1, 2, 4], roots := [4, 1] } ∧
    ((Edit.replaceNode 2 3).on shared.network).2.graph? 1 = some {
      name := "default_graph"
      parameters := [1], results := [4], sinks := []
      schedule := [1, 2, 4], revision := 1, isFresh := false
      roster := [1, 2, 4], roots := [4, 1] } ∧
    shared.network.graph? 3 = none ∧
    (shared.network.graph? 2).isSome ∧
    ((Edit.schedule 1).on ((Edit.replaceNode 2 3).on shared.network).2).1 = .ok [1, 3, 4] ∧
    ((Edit.removeBoundary .parameters 1 1).on shared.network).1 = .ok () ∧
    (((Edit.addOutput 1 (.port ⟨1, 0⟩)).on shared.network).2.graph 1).isFresh = false ∧
    ((Edit.replaceNode 2 3).on shared.clearEvents.network).2.events.toList =
      [.scheduleStale 4 1, .scheduleStale 2 2, .scheduleStale 2 3] := by
  cbv

end Session
end TensorGraph
