import Mathlib
import TensorGraph.Proofs.Runs
import TensorGraph.Proofs.Scheduling

/-!
# Coherence of schedules

The invariant that ties stored schedules, memberships and edges together: what a
live node or a graph refers to is alive, a node knows exactly the graphs, dropped or
not, that have it on their roster, the roster of a graph is its stored schedule, and a
schedule that is held to be fresh is the one that a computation from the current roots
gives.  Every move keeps it, so it holds in every session that commands lead to.
-/

namespace TensorGraph

namespace Network

/-- Stored schedules, memberships and edges agree with one another. -/
structure Coherent (network : Network) : Prop where
  dependencies : ∀ id, ∀ dependency ∈ network.dependencies id, network.Alive dependency
  boundary : ∀ id graph, network.graph? id = some graph →
    ∀ part, ∀ node ∈ graph.boundary part, network.role? node = some part.role
  schedule : ∀ id graph, network.graph? id = some graph →
    ∀ node ∈ graph.schedule, network.Alive node
  roster : ∀ id graph, network.graph? id = some graph → graph.roster = graph.schedule
  numbered : ∀ id, ∀ node ∈ (network.info id).roster, node < network.nodes.nextId
  memberships : ∀ node, network.Alive node → (network.memberships node).Nodup ∧
    ∀ id, id ∈ network.memberships node ↔ node ∈ (network.info id).roster
  fresh : ∀ id graph, network.graph? id = some graph → graph.isFresh →
    network.order graph.currentRoots = .ok graph.schedule

theorem alive_of_role? {network : Network} {id : NodeId} {role : Role}
    (found : network.role? id = some role) : network.Alive id :=
  alive_iff_role?.mpr ⟨role, found⟩

theorem mem_living {network : Network} {nodes : List NodeId} {id : NodeId} :
    id ∈ network.living nodes ↔ id ∈ nodes ∧ network.Alive id := by
  rw [living, List.mem_filter, contains_nodes]

theorem living_eq_self {network : Network} {nodes : List NodeId}
    (alive : ∀ node ∈ nodes, network.Alive node) : network.living nodes = nodes :=
  List.filter_eq_self.mpr fun node member => (contains_nodes network node).mpr (alive node member)

theorem coherent_empty : Network.empty.Coherent := by
  have noNode (id : NodeId) : Network.empty.node? id = none := by
    cases id <;> rfl
  have noGraph (id : GraphId) : Network.empty.graph? id = none := by
    cases id <;> rfl
  refine
    { dependencies := fun id dependency depends => ?_,
      boundary := fun id graph found => ?_, schedule := fun id graph found => ?_,
      roster := fun id graph found => ?_, numbered := fun id node member => ?_,
      memberships := fun node alive => ?_, fresh := fun id graph found => ?_ }
  · rw [Network.dependencies, noNode] at depends
    cases depends
  · rw [noGraph] at found
    cases found
  · rw [noGraph] at found
    cases found
  · rw [noGraph] at found
    cases found
  · cases id <;> cases member
  · obtain ⟨found, alive⟩ := alive
    rw [noNode] at alive
    cases alive
  · rw [noGraph] at found
    cases found

namespace Coherent

variable {before after : Network}

theorem alive_of_mem_boundary (coherent : before.Coherent) {id : GraphId} {graph : Graph}
    (found : before.graph? id = some graph) {part : Boundary} {node : NodeId}
    (member : node ∈ graph.boundary part) : before.Alive node :=
  alive_of_role? (coherent.boundary id graph found part node member)

theorem role?_of_mem_boundary (coherent : before.Coherent) {id : GraphId} {part : Boundary}
    {node : NodeId} (member : node ∈ (before.graph id).boundary part) :
    before.role? node = some part.role := by
  rw [Network.graph] at member
  cases found : before.graph? id with
  | none =>
      rw [found] at member
      cases part <;> cases member
  | some graph => exact coherent.boundary id graph found part node (by rwa [found] at member)

theorem alive_of_mem_currentRoots (coherent : before.Coherent) {id : GraphId} {graph : Graph}
    (found : before.graph? id = some graph) : ∀ root ∈ graph.currentRoots, before.Alive root := by
  intro root member
  obtain ⟨part, inPart⟩ := Graph.mem_currentRoots.mp member
  exact coherent.alive_of_mem_boundary found inPart

theorem alive_within_reach (coherent : before.Coherent) {id : GraphId} {graph : Graph}
    (found : before.graph? id = some graph) {node : NodeId}
    (reached : before.Reaches graph.currentRoots node) : before.Alive node :=
  alive_of_reaches coherent.dependencies (coherent.alive_of_mem_currentRoots found) reached

/-- An order from the current roots of a graph lists all that is within its reach. -/
theorem ordered (coherent : before.Coherent) {id : GraphId} {graph : Graph} {nodes : List NodeId}
    (found : before.graph? id = some graph) (ok : before.order graph.currentRoots = .ok nodes) :
    before.Ordered graph.currentRoots nodes :=
  ordered_of_order coherent.dependencies (coherent.alive_of_mem_currentRoots found) ok

theorem ordered_schedule (coherent : before.Coherent) {id : GraphId} {graph : Graph}
    (found : before.graph? id = some graph) (isFresh : graph.isFresh) :
    before.Ordered graph.currentRoots graph.schedule :=
  coherent.ordered found (coherent.fresh id graph found isFresh)

theorem alive_of_mem_held (coherent : before.Coherent) {id : GraphId} {graph : Graph}
    (found : before.graph? id = some graph) {node : NodeId} (member : node ∈ graph.held) :
    before.Alive node := by
  rcases Graph.mem_held.mp member with ⟨part, inPart⟩ | scheduled
  · exact coherent.alive_of_mem_boundary found inPart
  · exact coherent.schedule id graph found node scheduled

/-- A fresh schedule stays the right one while its nodes keep their dependencies. -/
theorem order_stays (coherent : before.Coherent) {id : GraphId} {graph : Graph}
    (found : before.graph? id = some graph) (isFresh : graph.isFresh)
    (alive : ∀ node ∈ graph.schedule, after.Alive node)
    (dependencies : ∀ node ∈ graph.schedule,
      after.dependencies node = before.dependencies node) :
    after.order graph.currentRoots = .ok graph.schedule := by
  have ok := coherent.fresh id graph found isFresh
  have ordered := coherent.ordered found ok
  refine order_congr (· ∈ graph.schedule) (fun node member => ?_) dependencies
    (fun node member dependency depends => ordered.mem_of_dependency member depends)
    (fun root member => ordered.mem_of_root member) ok
  exact iff_of_true (alive node member) (coherent.schedule id graph found node member)

theorem roster_info (coherent : before.Coherent) {id : GraphId} {graph : Graph}
    (found : before.graph? id = some graph) : (before.info id).roster = graph.schedule := by
  rw [info_of_graph? found, coherent.roster id graph found]

/-- Only the nodes on its roster know a graph, dropped or not. -/
theorem mem_roster_of_knows (coherent : before.Coherent) {id : GraphId} {node : NodeId}
    (knows : id ∈ before.memberships node) : node ∈ (before.info id).roster := by
  have alive : before.Alive node := by
    rw [Network.memberships] at knows
    cases found : before.node? node with
    | none => rw [found] at knows; cases knows
    | some known => exact ⟨known, found⟩
  exact ((coherent.memberships node alive).2 id).mp knows

/-- A node knows exactly the graphs that have it in their stored schedules. -/
theorem knows_iff (coherent : before.Coherent) {id : GraphId} {graph : Graph}
    (found : before.graph? id = some graph) {node : NodeId} :
    id ∈ before.memberships node ↔ node ∈ graph.schedule := by
  rw [← coherent.roster_info found]
  refine ⟨coherent.mem_roster_of_knows, fun member => ?_⟩
  rw [coherent.roster_info found] at member
  have alive := coherent.schedule id graph found node member
  exact ((coherent.memberships node alive).2 id).mpr (coherent.roster_info found ▸ member)

/-- Edits of nodes that no fresh schedule contains. -/
theorem of_edits (coherent : before.Coherent) {edited : List NodeId}
    (edits : Edits edited before after) : after.Coherent := by
  refine
    { dependencies := fun id dependency depends => (edits.alive_iff dependency).mpr ?_,
      boundary := fun id graph found part node member => ?_,
      schedule := fun id graph found node member => (edits.alive_iff node).mpr ?_,
      roster := fun id graph found => ?_,
      numbered := fun id node member => ?_,
      memberships := fun node present => ?_,
      fresh := fun id graph found isFresh => ?_ }
  · by_cases changed : id ∈ edited
    · rcases edits.targets id changed dependency depends with kept | known
      · exact coherent.dependencies id dependency kept
      · exact known
    · exact coherent.dependencies id dependency (edits.dependencies id changed ▸ depends)
  · obtain ⟨former, formerly, same⟩ := edits.exists_former found
    rw [edits.roles]
    rw [Graph.boundary_eq_of_course same] at member
    exact coherent.boundary id former formerly part node member
  · obtain ⟨former, formerly, same⟩ := edits.exists_former found
    rw [Graph.schedule_eq_of_course same] at member
    exact coherent.schedule id former formerly node member
  · obtain ⟨former, formerly, same⟩ := edits.exists_former found
    rw [Graph.roster_eq_of_course same, Graph.schedule_eq_of_course same]
    exact coherent.roster id former formerly
  · rw [edits.rosters] at member
    exact Nat.lt_of_lt_of_le (coherent.numbered id node member) edits.numbers
  · rw [edits.memberships]
    have known := coherent.memberships node ((edits.alive_iff node).mp present)
    apply known.imp_right
    intro iffs id
    rw [iffs id, edits.rosters]
  · obtain ⟨former, known, wasFresh, unknown⟩ := edits.fresh id graph found isFresh
    obtain ⟨other, formerly, same⟩ := edits.exists_former found
    obtain rfl : former = other := Option.some.inj (known.symm.trans formerly)
    have present (node : NodeId) (member : node ∈ former.schedule) : before.Alive node :=
      coherent.schedule id former known node member
    have kept (node : NodeId) (member : node ∈ former.schedule) : node ∉ edited := by
      intro changed
      exact unknown node changed ((coherent.knows_iff known).mpr member)
    rw [Graph.currentRoots_eq_of_course same, Graph.schedule_eq_of_course same]
    apply coherent.order_stays known wasFresh
    · exact fun node member => (edits.alive_iff node).mpr (present node member)
    · exact fun node member => edits.dependencies node (kept node member)

/-- Changes of graphs that keep stored schedules and make none of them fresh. -/
theorem of_graphs (coherent : before.Coherent)
    (same : after.nodes = before.nodes)
    (boundary : ∀ id graph, after.graph? id = some graph →
      ∀ part, ∀ node ∈ graph.boundary part, before.role? node = some part.role)
    (scheduled : ∀ id graph, after.graph? id = some graph →
      ∀ node ∈ graph.schedule, before.Alive node)
    (rosters : ∀ id graph, after.graph? id = some graph → graph.roster = graph.schedule)
    (infos : ∀ id, (after.info id).roster = (before.info id).roster)
    (fresh : ∀ id graph, after.graph? id = some graph → graph.isFresh →
      before.graph? id = some graph) : after.Coherent := by
  have nodes (id : NodeId) : after.node? id = before.node? id := by
    rw [node?, same, node?]
  have alive (id : NodeId) : after.Alive id ↔ before.Alive id := by
    rw [Alive, nodes, Alive]
  have dependencies (id : NodeId) : after.dependencies id = before.dependencies id := by
    rw [Network.dependencies, nodes, Network.dependencies]
  have memberships (id : NodeId) : after.memberships id = before.memberships id := by
    rw [Network.memberships, nodes, Network.memberships]
  refine
    { dependencies := fun id dependency depends => ?_,
      boundary := fun id graph found part node member => ?_,
      schedule := fun id graph found node member =>
        (alive node).mpr (scheduled id graph found node member),
      roster := rosters,
      numbered := fun id node member => ?_,
      memberships := fun node present => ?_,
      fresh := fun id graph found isFresh => ?_ }
  · rw [dependencies] at depends
    exact (alive dependency).mpr (coherent.dependencies id dependency depends)
  · rw [role?, nodes]
    exact boundary id graph found part node member
  · rw [infos] at member
    rw [same]
    exact coherent.numbered id node member
  · rw [memberships]
    apply (coherent.memberships node ((alive node).mp present)).imp_right
    intro iffs id
    rw [iffs id, infos]
  · exact coherent.order_stays (fresh id graph found isFresh) isFresh
      (fun node member => (alive node).mpr (scheduled id graph found node member))
      fun node _ => dependencies node

theorem of_modifyBoundary (coherent : before.Coherent) (id : GraphId) (part : Boundary)
    {change : List NodeId → List NodeId}
    (roles : ∀ node ∈ change ((before.graph id).boundary part),
      before.role? node = some part.role) :
    ((before.modifyGraph id (·.modifyBoundary part change)).touchBoundary id).Coherent := by
  have graphs {other : GraphId} {graph : Graph}
      (found : ((before.modifyGraph id (·.modifyBoundary part change)).touchBoundary id).graph?
        other = some graph) :
      (∃ former, before.graph? id = some former ∧ graph =
        { former.modifyBoundary part change with
          isFresh := false
          roots := (former.modifyBoundary part change).currentRoots }) ∨
      before.graph? other = some graph := by
    rw [graph?_modifyBoundary] at found
    split at found
    next same =>
      obtain ⟨former, formerly, rfl⟩ := Option.map_eq_some_iff.mp found
      exact Or.inl ⟨former, by rw [same, formerly], rfl⟩
    · exact Or.inr found
  refine coherent.of_graphs (nodes_touchBoundary _ _) ?_ ?_ ?_ (fun other => ?_) ?_
  · intro other graph found known node member
    rcases graphs found with ⟨former, formerly, rfl⟩ | untouched
    · rw [graph_of_graph? formerly] at roles
      change node ∈ (former.modifyBoundary part change).boundary known at member
      rw [Graph.boundary_modifyBoundary] at member
      split at member
      next samePart => exact samePart ▸ roles node (samePart ▸ member)
      · exact coherent.boundary id former formerly known node member
    · exact coherent.boundary other graph untouched known node member
  · intro other graph found node member
    rcases graphs found with ⟨former, formerly, rfl⟩ | untouched
    · change node ∈ (former.modifyBoundary part change).schedule at member
      rw [Graph.schedule_modifyBoundary] at member
      exact coherent.schedule id former formerly node member
    · exact coherent.schedule other graph untouched node member
  · intro other graph found
    rcases graphs found with ⟨former, formerly, rfl⟩ | untouched
    · change (former.modifyBoundary part change).roster =
        (former.modifyBoundary part change).schedule
      rw [Graph.roster_modifyBoundary, Graph.schedule_modifyBoundary]
      exact coherent.roster id former formerly
    · exact coherent.roster other graph untouched
  · rw [roster_touchBoundary]
    exact before.roster_modifyGraph other id fun graph => graph.roster_modifyBoundary part change
  · intro other graph found isFresh
    rcases graphs found with ⟨former, -, rfl⟩ | untouched
    · cases isFresh
    · exact untouched

theorem of_addGraph (coherent : before.Coherent) (name : String)
    {parameters results sinks : List NodeId}
    (parametersAccepted : ∀ node ∈ parameters, before.role? node = some .parameter)
    (resultsAccepted : ∀ node ∈ results, before.role? node = some .result)
    (sinksAccepted : ∀ node ∈ sinks, before.role? node = some .sink) :
    (before.addGraph { name, parameters, results, sinks }).Coherent := by
  have cases {id : GraphId} {graph : Graph}
      (found : (before.addGraph { name, parameters, results, sinks }).graph? id = some graph) :
      graph = { name, parameters, results, sinks } ∨ before.graph? id = some graph := by
    rw [graph?_addGraph] at found
    split at found
    · exact Or.inl (Option.some.inj found).symm
    · exact Or.inr found
  refine coherent.of_graphs rfl (fun id graph found part node member => ?_)
    (fun id graph found node member => ?_) (fun id graph found => ?_) (fun id => ?_)
    fun id graph found isFresh => ?_
  · rcases cases found with rfl | formerly
    · cases part with
      | parameters => exact parametersAccepted node member
      | results => exact resultsAccepted node member
      | sinks => exact sinksAccepted node member
    · exact coherent.boundary id graph formerly part node member
  · rcases cases found with rfl | formerly
    · cases member
    · exact coherent.schedule id graph formerly node member
  · rcases cases found with rfl | formerly
    · rfl
    · exact coherent.roster id graph formerly
  · rw [info_addGraph]
    split
    next same =>
      rw [same, info_nextId]
      rfl
    · rfl
  · rcases cases found with rfl | formerly
    · cases isFresh
    · exact formerly

/-- A new node reads live nodes, and no graph knows it. -/
theorem of_addNode (coherent : before.Coherent) (name : String) (operator : Operator)
    {sources : List OutputPort} (types : List TensorType)
    (valid : ∀ source ∈ sources, source.index < before.outputCount source.node) :
    (before.addNode name operator sources types).Coherent := by
  have stays {id : NodeId} (known : before.Alive id) :
      (before.addNode name operator sources types).Alive id :=
    (before.alive_addNode_iff name operator sources types).mpr (Or.inr known)
  have graphs (id : GraphId) := before.graph?_addNode name operator sources types id
  have infos (id : GraphId) :
      (before.addNode name operator sources types).info id = before.info id :=
    info_eq_of_graphs (before.graphs_addNode name operator sources types) id
  refine
    { dependencies := fun id dependency depends => stays ?_,
      boundary := fun id graph found part node member => ?_,
      schedule := fun id graph found node member => stays ?_,
      roster := fun id graph found => ?_,
      numbered := fun id node member => ?_,
      memberships := fun node alive => ?_,
      fresh := fun id graph found isFresh => ?_ }
  · rw [dependencies_addNode] at depends
    split at depends
    · obtain ⟨source, member, rfl⟩ := List.mem_map.mp depends
      exact alive_of_lt_outputCount (valid source member)
    · exact coherent.dependencies id dependency depends
  · rw [graphs] at found
    have known := coherent.alive_of_mem_boundary found member
    rw [role?_addNode, if_neg (before.ne_nextId_of_alive known)]
    exact coherent.boundary id graph found part node member
  · exact coherent.schedule id graph (graphs id ▸ found) node member
  · exact coherent.roster id graph (graphs id ▸ found)
  · rw [infos] at member
    rw [nextId_addNode]
    exact Nat.lt_succ_of_lt (coherent.numbered id node member)
  · simp only [memberships_addNode, infos]
    split
    next new =>
      refine ⟨List.nodup_nil, fun id => iff_of_false List.not_mem_nil fun member => ?_⟩
      exact absurd (coherent.numbered id node member) (new ▸ Nat.lt_irrefl _)
    next old =>
      have formerly := (before.alive_addNode_iff name operator sources types).mp alive
      exact coherent.memberships node (formerly.resolve_left old)
  · rw [graphs] at found
    apply coherent.order_stays found isFresh
    · exact fun node member => stays (coherent.schedule id graph found node member)
    · intro node member
      have known := coherent.schedule id graph found node member
      rw [dependencies_addNode, if_neg (before.ne_nextId_of_alive known)]

theorem of_dropGraph (coherent : before.Coherent) (id : GraphId) :
    (before.dropGraph id).Coherent := by
  have names : Agree Node.name before (before.dropGraph id) :=
    before.agree_dropGraph id fun _ _ => rfl
  have alive (node : NodeId) : (before.dropGraph id).Alive node ↔ before.Alive node :=
    names.alive_iff node
  have dependencies (node : NodeId) :
      (before.dropGraph id).dependencies node = before.dependencies node :=
    (before.agree_dropGraph id fun _ _ => rfl).dependencies_eq node
  have graphs {other : GraphId} {graph : Graph} :
      (before.dropGraph id).graph? other = some graph ↔
        other ≠ id ∧ before.graph? other = some graph :=
    before.graph?_dropGraph_eq_some
  refine
    { dependencies := fun node dependency depends => (alive dependency).mpr ?_,
      boundary := fun other graph found part node member => ?_,
      schedule := fun other graph found node member => (alive node).mpr ?_,
      roster := fun other graph found => coherent.roster other graph (graphs.mp found).2,
      numbered := fun other node member => ?_,
      memberships := fun node present => ?_,
      fresh := fun other graph found isFresh => ?_ }
  · exact coherent.dependencies node dependency (dependencies node ▸ depends)
  · have role : (before.dropGraph id).role? node = before.role? node :=
      before.agree_dropGraph id (fun _ _ => rfl) node
    exact role.trans (coherent.boundary other graph (graphs.mp found).2 part node member)
  · exact coherent.schedule other graph (graphs.mp found).2 node member
  · rw [info_dropGraph] at member
    split at member
    · cases member
    · rw [nextId_dropGraph]
      exact coherent.numbered other node member
  · obtain ⟨nodup, iffs⟩ := coherent.memberships node ((alive node).mp present)
    rw [memberships_dropGraph]
    refine ⟨nodup.filter _, fun other => ?_⟩
    rw [List.mem_filter, decide_eq_true_eq, iffs other, info_dropGraph]
    by_cases same : id = other
    · rw [if_pos same]
      exact iff_of_false (fun both => both.2 same.symm) List.not_mem_nil
    · rw [if_neg same, and_iff_left (Ne.symm same)]
  · have known := (graphs.mp found).2
    exact coherent.order_stays known isFresh
      (fun node member => (alive node).mpr (coherent.schedule other graph known node member))
      fun node _ => dependencies node

/-- A graph that is retired leaves what its nodes know as it was. -/
theorem of_retireGraph (coherent : before.Coherent) (id : GraphId) :
    (before.retireGraph id).Coherent := by
  have graphs {other : GraphId} {graph : Graph} :
      (before.retireGraph id).graph? other = some graph ↔
        other ≠ id ∧ before.graph? other = some graph :=
    before.graph?_retireGraph_eq_some
  refine coherent.of_graphs rfl
    (fun other graph found => coherent.boundary other graph (graphs.mp found).2)
    (fun other graph found => coherent.schedule other graph (graphs.mp found).2)
    (fun other graph found => coherent.roster other graph (graphs.mp found).2)
    (fun other => by rw [info_retireGraph]) fun other graph found _ => (graphs.mp found).2

/-- An order from the current roots repeats no node, and lists none where there is no
graph. -/
theorem nodup_of_order (coherent : before.Coherent) {id : GraphId} {schedule : List NodeId}
    (ordered : before.order (before.graph id).currentRoots = .ok schedule) :
    schedule.Nodup ∧ (before.graph? id = none → schedule = []) := by
  cases known : before.graph? id with
  | some graph =>
      rw [graph_of_graph? known] at ordered
      exact ⟨(coherent.ordered known ordered).nodup, by simp⟩
  | none =>
      rw [Network.graph, known] at ordered
      have noRoots : (Option.getD none default : Graph).currentRoots = [] := rfl
      rw [noRoots] at ordered
      have listed := ordered_of_order coherent.dependencies (by simp) ordered
      refine ⟨listed.nodup, fun _ => List.eq_nil_iff_forall_not_mem.mpr fun node member => ?_⟩
      obtain ⟨root, none, -⟩ := (listed.mem_iff node).mp member
      cases none

/-- After a schedule was stored, exactly its nodes know the graph. -/
theorem memberships_of_storeSchedule (coherent : before.Coherent) {id : GraphId}
    {schedule : List NodeId}
    (ordered : before.order (before.graph id).currentRoots = .ok schedule) {node : NodeId}
    (known : before.Alive node) :
    ((before.storeSchedule id schedule).memberships node).Nodup ∧
    ∀ other, other ∈ (before.storeSchedule id schedule).memberships node ↔
      node ∈ ((before.storeSchedule id schedule).info other).roster := by
  obtain ⟨nodup, noGraph⟩ := coherent.nodup_of_order ordered
  obtain ⟨once, iffs⟩ := coherent.memberships node known
  cases found : before.graph? id with
  | none =>
      obtain rfl := noGraph found
      rw [memberships_storeSchedule_nil before id found]
      refine ⟨once, fun other => ?_⟩
      rw [roster_storeSchedule, found, if_neg fun both => Bool.false_ne_true both.2]
      exact iffs other
  | some graph =>
      have inRoster : id ∈ before.memberships node → node ∈ (before.graph id).roster := by
        intro member
        rw [graph_of_graph? found, coherent.roster id graph found]
        exact (coherent.knows_iff found).mp member
      refine (memberships_storeSchedule before id nodup known inRoster once).imp_right
        fun others other => (others other).trans ?_
      rw [roster_storeSchedule, found]
      by_cases same : other = id
      · rw [if_pos same, if_pos ⟨same, rfl⟩]
      · rw [if_neg same, if_neg fun both => same both.1]
        exact iffs other

/-- A stored schedule that was computed from the current roots is fresh. -/
theorem of_storeSchedule (coherent : before.Coherent) {id : GraphId} {schedule : List NodeId}
    (ordered : before.order (before.graph id).currentRoots = .ok schedule) :
    (before.storeSchedule id schedule).Coherent := by
  have names : Agree Node.name before (before.storeSchedule id schedule) :=
    before.agree_storeSchedule id schedule fun _ _ => rfl
  have alive (node : NodeId) :
      (before.storeSchedule id schedule).Alive node ↔ before.Alive node :=
    names.alive_iff node
  have dependencies (node : NodeId) :
      (before.storeSchedule id schedule).dependencies node = before.dependencies node :=
    (before.agree_storeSchedule id schedule fun _ _ => rfl).dependencies_eq node
  refine
    { dependencies := fun node dependency depends => (alive dependency).mpr ?_,
      boundary := fun other graph found part node member => ?_,
      schedule := fun other graph found node member => (alive node).mpr ?_,
      roster := fun other graph found => ?_,
      numbered := fun other node member => ?_,
      memberships := fun node present =>
        coherent.memberships_of_storeSchedule ordered ((alive node).mp present),
      fresh := fun other graph found isFresh => ?_ }
  · exact coherent.dependencies node dependency (dependencies node ▸ depends)
  · obtain ⟨former, formerly, boundary, -⟩ := of_graph?_storeSchedule _ _ _ found
    have role : (before.storeSchedule id schedule).role? node = before.role? node :=
      before.agree_storeSchedule id schedule (fun _ _ => rfl) node
    exact role.trans (coherent.boundary other former formerly part node (boundary ▸ member))
  · obtain ⟨former, formerly, -, -, ⟨-, same, -⟩ | ⟨-, rfl⟩⟩ := of_graph?_storeSchedule _ _ _ found
    · exact alive_of_order ordered node (same ▸ member)
    · exact coherent.schedule other graph formerly node member
  · obtain ⟨former, formerly, -, -, ⟨-, same, roster⟩ | ⟨-, rfl⟩⟩ :=
      of_graph?_storeSchedule _ _ _ found
    · rw [same, roster]
    · exact coherent.roster other graph formerly
  · rw [nextId_storeSchedule]
    rw [roster_storeSchedule] at member
    split at member
    · obtain ⟨found, there⟩ := alive_of_order ordered node member
      exact Store.lt_nextId there
    · exact coherent.numbered other node member
  · obtain ⟨former, formerly, -, roots, ⟨rfl, same, -⟩ | ⟨-, rfl⟩⟩ :=
      of_graph?_storeSchedule _ _ _ found
    · rw [roots, same]
      rw [graph_of_graph? formerly] at ordered
      exact order_congr (fun _ => True) (fun node _ => alive node)
        (fun node _ => dependencies node) (by simp) (by simp) ordered
    · apply coherent.order_stays formerly isFresh
      · intro node member
        exact (alive node).mpr (coherent.schedule other graph formerly node member)
      · exact fun node _ => dependencies node

/-- What is within reach of a graph stays. -/
theorem mem_survivors_of_reaches (coherent : before.Coherent) {id : GraphId} {graph : Graph}
    (found : before.graph? id = some graph) {held : List NodeId} {node : NodeId}
    (reached : before.Reaches graph.currentRoots node) : node ∈ before.survivors held := by
  obtain ⟨root, member, path⟩ := reached
  induction path with
  | refl =>
      exact mem_survivors_of_held found
        (Graph.mem_held.mpr (Or.inl (Graph.mem_currentRoots.mp member)))
        (coherent.alive_of_mem_currentRoots found root member)
  | tail _ depends stays =>
      exact mem_survivors_of_dependency stays depends (coherent.dependencies _ _ depends)

/-- A release drops no node that a graph or a node that stays refers to. -/
theorem of_release (coherent : before.Coherent) (held : List NodeId) :
    (before.release held).Coherent := by
  have dependencies {node : NodeId} (kept : node ∈ before.survivors held) :
      (before.release held).dependencies node = before.dependencies node :=
    elim_release (fun _ _ => rfl) [] kept
  have keeps {id : GraphId} {graph : Graph} (found : before.graph? id = some graph) {node : NodeId}
      (member : node ∈ graph.held) : node ∈ before.survivors held :=
    mem_survivors_of_held found member (coherent.alive_of_mem_held found member)
  have keepsScheduled {id : GraphId} {graph : Graph} (found : before.graph? id = some graph)
      {node : NodeId} (member : node ∈ graph.schedule) : (before.release held).Alive node :=
    alive_release_iff.mpr ⟨keeps found (Graph.mem_held.mpr (Or.inr member)),
      coherent.schedule id graph found node member⟩
  refine
    { dependencies := fun node dependency depends => ?_,
      boundary := fun id graph found part node member => ?_,
      schedule := fun id graph found node member => ?_,
      roster := fun id graph found => ?_,
      numbered := fun id node member => ?_,
      memberships := fun node present => ?_,
      fresh := fun id graph found isFresh => ?_ }
  · by_cases kept : node ∈ before.survivors held
    · rw [dependencies kept] at depends
      have present := coherent.dependencies node dependency depends
      exact alive_release_iff.mpr ⟨mem_survivors_of_dependency kept depends present, present⟩
    · have dropped : (before.release held).node? node = none := by
        apply Option.eq_none_iff_forall_ne_some.mpr
        exact fun found present => kept (alive_release_iff.mp ⟨found, present⟩).1
      rw [Network.dependencies, dropped] at depends
      cases depends
  · rw [graph?_release] at found
    have kept := keeps found (Graph.mem_held.mpr (Or.inl ⟨part, member⟩))
    have role : (before.release held).role? node = before.role? node :=
      map_release (fun _ _ => rfl) kept
    exact role.trans (coherent.boundary id graph found part node member)
  · rw [graph?_release] at found
    exact keepsScheduled found member
  · rw [graph?_release] at found
    exact coherent.roster id graph found
  · rw [info_eq_of_graphs (graphs_release _ _)] at member
    rw [nextId_release]
    exact coherent.numbered id node member
  · obtain ⟨kept, known⟩ := alive_release_iff.mp present
    have memberships : (before.release held).memberships node = before.memberships node :=
      elim_release (fun _ _ => rfl) [] kept
    simp only [memberships, info_eq_of_graphs (graphs_release _ _)]
    exact coherent.memberships node known
  · rw [graph?_release] at found
    apply coherent.order_stays found isFresh
    · exact fun node member => keepsScheduled found member
    · exact fun node member => dependencies (keeps found (Graph.mem_held.mpr (Or.inr member)))

end Coherent

/-- Nodes that a boundary accepts have its role. -/
theorem role?_of_checkBoundary {network : Network} {role : Role} {present nodes : List NodeId}
    (accepted : network.checkBoundary role present nodes = .ok ()) :
    ∀ node ∈ nodes, network.role? node = some role := by
  induction nodes generalizing present with
  | nil => simp
  | cons node nodes ih =>
      rw [checkBoundary] at accepted
      split at accepted
      · cases accepted
      next sameRole =>
        split at accepted
        · cases accepted
        · exact List.forall_mem_cons.mpr ⟨Decidable.not_not.mp sameRole, ih accepted⟩

/-- Every move keeps schedules, memberships and edges in agreement. -/
theorem Coherent.of_move {before after : Network} (move : Move before after)
    (coherent : before.Coherent) : after.Coherent := by
  cases move with
  | rewired valid reads => exact coherent.of_edits (edits_rewire valid reads)
  | rewiredAll alive valid => exact coherent.of_edits (edits_rewireAll alive valid)
  | controlAdded distinct alive present new =>
      exact coherent.of_edits (edits_addControl alive present)
  | controlRemoved alive known => exact coherent.of_edits (edits_removeControl alive)
  | controlCleared alive => exact coherent.of_edits (edits_clearControl alive)
  | touched => exact coherent.of_edits (edits_touch _ _)
  | created sensible valid inferred => exact coherent.of_addNode _ _ _ valid
  | @outputAdded name port types id valid inferred =>
      have reads : ∀ source ∈ [port], source.index < before.outputCount source.node := by
        simpa using valid
      have created := coherent.of_addNode name .result types reads
      apply created.of_modifyBoundary id .results
      intro node member
      rcases List.mem_append.mp member with former | new
      · exact created.role?_of_mem_boundary former
      · rw [List.mem_singleton.mp new, role?_addNode, if_pos rfl]
        rfl
  | withdrawn => exact coherent.of_edits (edits_withdrawn _ _ _ _)
  | inferred alive inferred =>
      exact coherent.of_edits (edits_modifyNode _ _ (fun _ => rfl) fun _ => rfl)
  | declared alive parameter => exact coherent.of_edits (edits_declare alive parameter)
  | renamed => exact coherent.of_edits (edits_modifyNode _ _ (fun _ => rfl) fun _ => rfl)
  | named valid free gives =>
      exact coherent.of_edits (edits_modifyNode _ _ (fun _ => rfl) fun _ => rfl)
  | rootsRecorded => exact coherent.of_edits (edits_modifyGraph _ _ (fun _ => rfl) fun _ => rfl)
  | scheduled ordered => exact coherent.of_storeSchedule ordered
  | @boundaryAdded part id nodes accepted =>
      apply coherent.of_modifyBoundary id part
      intro node member
      rcases List.mem_append.mp member with former | new
      · exact coherent.role?_of_mem_boundary former
      · exact role?_of_checkBoundary accepted node new
  | @boundaryRemoved part id node present =>
      exact coherent.of_modifyBoundary id part fun node member =>
        coherent.role?_of_mem_boundary (List.mem_of_mem_erase member)
  | graphAdded parametersAccepted resultsAccepted sinksAccepted =>
      exact (coherent.of_addGraph _ (role?_of_checkBoundary parametersAccepted)
        (role?_of_checkBoundary resultsAccepted) (role?_of_checkBoundary sinksAccepted)).of_edits
        (edits_modifyGraph _ _ (fun _ => rfl) fun _ => rfl)
  | graphRetired found => exact coherent.of_retireGraph _
  | graphDropped => exact coherent.of_dropGraph _
  | graphRenamed => exact coherent.of_edits (edits_modifyGraph _ _ (fun _ => rfl) fun _ => rfl)
  | logged => exact coherent.of_edits (edits_log _ _)
  | released => exact coherent.of_release _

end Network

theorem Network.Coherent.of_moves {before after : Network} (moves : Moves before after)
    (coherent : before.Coherent) : after.Coherent :=
  moves.preserve (fun _ _ move coherent => coherent.of_move move) coherent

/-- What a graph answers as its schedule is what an order from its current roots
gives. -/
theorem Network.Coherent.fst_schedule {network : Network} (coherent : network.Coherent)
    {id : GraphId} {graph : Graph} (found : network.graph? id = some graph) :
    ((Edit.schedule id).on network).1 = network.order graph.currentRoots := by
  rw [Edit.on_schedule, graph_of_graph? found]
  split
  next isFresh => exact (coherent.fresh id graph found isFresh).symm
  · cases network.order graph.currentRoots <;> rfl

namespace Session

variable {session : Session}

/-- In every session that commands lead to, schedules, memberships and edges agree. -/
theorem Reachable.coherent (reachable : session.Reachable) : session.network.Coherent :=
  Network.coherent_empty.of_moves reachable.moves

/-- A parameter that a rectifier reads; a result reads the parameter, but read the
rectifier when the schedule of the graph was computed. -/
def rerouted : Session :=
  empty.run [
    .create (.parameter { elementType := .f32, shape := .fixed [2, 3] }) [] none (.text "feed"),
    .create .relu [⟨1, 0⟩] none (.text "rectifier"),
    .create .result [⟨2, 0⟩] none (.text "outcome"),
    .createGraph [3] [1] [] .absent (.text "graph"),
    .setSource ⟨3, 0⟩ ⟨1, 0⟩]

theorem rerouted_reachable : rerouted.Reachable :=
  ⟨_, rfl⟩

theorem graph?_rerouted :
    rerouted.network.graph? 1 = some {
      name := "default_graph"
      parameters := [1], results := [3], sinks := []
      schedule := [1, 2, 3], revision := 1, isFresh := false
      roster := [1, 2, 3], roots := [3, 1] } ∧
    (rerouted.network.node? 2).isSome ∧ rerouted.network.order [3, 1] = .ok [1, 3] := by
  cbv

/-- Whether it is stored or computed, the schedule of a graph is what an order from
its results, sinks and parameters gives at present, the same nodes in the same
places or the same refusal; a schedule that is marked as fresh is that order. -/
theorem Reachable.schedule_eq_order (reachable : session.Reachable) {id : GraphId}
    {graph : Graph} (found : session.network.graph? id = some graph) :
    ((Edit.schedule id).on session.network).1 =
      session.network.order (graph.results ++ graph.sinks ++ graph.parameters) ∧
    (graph.isFresh → session.network.order (graph.results ++ graph.sinks ++ graph.parameters) =
      .ok graph.schedule) :=
  ⟨reachable.coherent.fst_schedule found, reachable.coherent.fresh id graph found⟩

theorem schedule_rerouted : ((Edit.schedule 1).on rerouted.network).1 = .ok [1, 3] :=
  (rerouted_reachable.schedule_eq_order graph?_rerouted.1).1.trans graph?_rerouted.2.2

/-- A live node knows a graph exactly if it is in the stored schedule of the graph,
and then once; the roster of a graph is its stored schedule. -/
theorem Reachable.mem_memberships_iff (reachable : session.Reachable) {id : NodeId} {node : Node}
    (alive : session.network.node? id = some node) {graphId : GraphId} {graph : Graph}
    (found : session.network.graph? graphId = some graph) :
    (graphId ∈ node.memberships ↔ id ∈ graph.schedule) ∧
    (id ∈ graph.schedule → node.memberships.count graphId = 1) ∧
    graph.roster = graph.schedule := by
  have nodup := (reachable.coherent.memberships id ⟨node, alive⟩).1
  have knows : graphId ∈ session.network.memberships id ↔ id ∈ graph.schedule :=
    reachable.coherent.knows_iff found
  rw [Network.memberships, alive, Option.elim_some] at nodup knows
  refine ⟨knows, fun member => ?_, reachable.coherent.roster graphId graph found⟩
  exact List.count_eq_one_of_mem nodup (knows.mpr member)

theorem count_memberships_rerouted :
    ∃ node graph, rerouted.network.node? 2 = some node ∧
      rerouted.network.graph? 1 = some graph ∧ graph.isFresh = false ∧
      node.memberships.count 1 = 1 := by
  obtain ⟨found, alive, -⟩ := graph?_rerouted
  obtain ⟨node, present⟩ := Option.isSome_iff_exists.mp alive
  refine ⟨node, _, present, found, rfl, ?_⟩
  exact (rerouted_reachable.mem_memberships_iff present found).2.1 (by decide)

end Session

end TensorGraph
