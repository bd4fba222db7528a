import TensorGraph.Proofs.Edits
import TensorGraph.Proofs.Survivors

/-!
# What moves do to graphs and memberships

The nodes and graphs of a network after a schedule was stored, a boundary changed,
and a node or a graph came or went.
-/

namespace TensorGraph

theorem Graph.boundary_modifyBoundary (graph : Graph) (part other : Boundary)
    (change : List NodeId → List NodeId) :
    (graph.modifyBoundary part change).boundary other =
      if part = other then change (graph.boundary other) else graph.boundary other := by
  cases part <;> cases other <;> rfl

theorem Graph.schedule_modifyBoundary (graph : Graph) (part : Boundary)
    (change : List NodeId → List NodeId) :
    (graph.modifyBoundary part change).schedule = graph.schedule := by
  cases part <;> rfl

theorem Graph.roster_modifyBoundary (graph : Graph) (part : Boundary)
    (change : List NodeId → List NodeId) :
    (graph.modifyBoundary part change).roster = graph.roster := by
  cases part <;> rfl

theorem Graph.mem_currentRoots {graph : Graph} {id : NodeId} :
    id ∈ graph.currentRoots ↔ ∃ part, id ∈ graph.boundary part := by
  simp only [currentRoots, List.mem_append]
  constructor
  · rintro ((member | member) | member)
    · exact ⟨.results, member⟩
    · exact ⟨.sinks, member⟩
    · exact ⟨.parameters, member⟩
  · rintro ⟨part, member⟩
    cases part with
    | parameters => exact Or.inr member
    | results => exact Or.inl (Or.inl member)
    | sinks => exact Or.inl (Or.inr member)

/-- A graph with a further result, its schedule stale and its roots current. -/
def Graph.withResult (graph : Graph) (result : NodeId) : Graph :=
  { graph.modifyBoundary .results (· ++ [result]) with
    isFresh := false
    roots := (graph.modifyBoundary .results (· ++ [result])).currentRoots }

theorem Graph.mem_currentRoots_withResult {graph : Graph} {result id : NodeId} :
    id ∈ (graph.withResult result).currentRoots ↔ id = result ∨ id ∈ graph.currentRoots := by
  simp only [withResult, modifyBoundary, currentRoots, List.mem_append, List.mem_singleton]
  tauto

theorem Graph.mem_held {graph : Graph} {id : NodeId} :
    id ∈ graph.held ↔ (∃ part, id ∈ graph.boundary part) ∨ id ∈ graph.schedule := by
  rw [← mem_currentRoots]
  simp only [held, currentRoots, List.mem_append]
  tauto

theorem Network.reaches_of_mem_boundary {network : Network} {graph : Graph} (part : Boundary)
    {node : NodeId} (member : node ∈ graph.boundary part) :
    network.Reaches graph.currentRoots node :=
  ⟨node, Graph.mem_currentRoots.mpr ⟨part, member⟩, .refl⟩

namespace Network

variable {β : Type} {view : Node → β}

section Membership

theorem agree_leaveAll (network : Network) (id : GraphId) (nodes : List NodeId)
    (left : ∀ node : Node,
      view { node with memberships := node.memberships.filter (· ≠ id) } = view node) :
    Agree view network (nodes.foldl (leave id) network) := by
  induction nodes generalizing network with
  | nil => exact .refl view network
  | cons node nodes ih => exact (agree_modifyNode network node left).trans (ih _)

theorem agree_joinAll (network : Network) (id : GraphId) (nodes : List NodeId)
    (joined : ∀ node : Node,
      view { node with memberships := node.memberships ++ [id] } = view node) :
    Agree view network (nodes.foldl (join id) network) := by
  induction nodes generalizing network with
  | nil => exact .refl view network
  | cons node nodes ih => exact (agree_modifyNode network node joined).trans (ih _)

theorem graphs_leaveAll (network : Network) (id : GraphId) (nodes : List NodeId) :
    (nodes.foldl (leave id) network).graphs = network.graphs :=
  network.view_foldl (·.graphs) (leave id) (fun _ _ => rfl) nodes

theorem graphs_joinAll (network : Network) (id : GraphId) (nodes : List NodeId) :
    (nodes.foldl (join id) network).graphs = network.graphs :=
  network.view_foldl (·.graphs) (join id) (fun _ _ => rfl) nodes

@[simp] theorem graph?_leaveAll (network : Network) (id other : GraphId) (nodes : List NodeId) :
    (nodes.foldl (leave id) network).graph? other = network.graph? other :=
  graph?_eq_of_graphs (network.graphs_leaveAll id nodes) other

@[simp] theorem graph?_joinAll (network : Network) (id other : GraphId) (nodes : List NodeId) :
    (nodes.foldl (join id) network).graph? other = network.graph? other :=
  graph?_eq_of_graphs (network.graphs_joinAll id nodes) other

theorem memberships_leave (network : Network) (id : GraphId) (target node : NodeId) :
    (leave id network target).memberships node =
      if target = node then (network.memberships node).filter (· ≠ id)
      else network.memberships node := by
  rw [memberships, leave, node?_report, node?_modifyNode, memberships]
  cases network.node? node <;> split <;> rfl

theorem memberships_join (network : Network) (id : GraphId) {target node : NodeId}
    (alive : network.Alive node) :
    (join id network target).memberships node =
      if target = node then network.memberships node ++ [id] else network.memberships node := by
  obtain ⟨found, alive⟩ := alive
  rw [memberships, join, node?_report, node?_modifyNode, memberships, alive]
  split <;> rfl

theorem memberships_leaveAll (network : Network) (id : GraphId) (nodes : List NodeId)
    (node : NodeId) :
    (nodes.foldl (leave id) network).memberships node =
      if node ∈ nodes then (network.memberships node).filter (· ≠ id)
      else network.memberships node := by
  induction nodes generalizing network with
  | nil => simp
  | cons first nodes ih =>
      rw [List.foldl_cons, ih, memberships_leave]
      by_cases now : first = node <;> by_cases later : node ∈ nodes <;>
        simp [now, later, Ne.symm, List.filter_filter]

theorem memberships_joinAll (network : Network) (id : GraphId) {nodes : List NodeId}
    (nodup : nodes.Nodup) {node : NodeId} (alive : network.Alive node) :
    (nodes.foldl (join id) network).memberships node =
      if node ∈ nodes then network.memberships node ++ [id] else network.memberships node := by
  induction nodes generalizing network with
  | nil => simp
  | cons first nodes ih =>
      have agree : Agree Node.name network (join id network first) :=
        agree_modifyNode network first fun _ => rfl
      have stays := (agree.alive_iff node).mpr alive
      rw [List.foldl_cons, ih _ (List.nodup_cons.mp nodup).2 stays, memberships_join _ _ alive]
      have fresh := (List.nodup_cons.mp nodup).1
      by_cases now : first = node
      · subst now
        simp [fresh]
      · simp [now, Ne.symm now]

end Membership

section StoredSchedule

variable (network : Network) (id : GraphId) (schedule : List NodeId)

/-- Storing a schedule shows only in a view that tells the memberships in its graph. -/
theorem agree_storeSchedule_of_members
    (left : ∀ node : Node,
      view { node with memberships := node.memberships.filter (· ≠ id) } = view node)
    (joined : ∀ node : Node,
      view { node with memberships := node.memberships ++ [id] } = view node) :
    Agree view network (network.storeSchedule id schedule) :=
  (agree_leaveAll network id _ left).trans (agree_joinAll _ id _ joined)

theorem agree_storeSchedule
    (same : ∀ (node : Node) memberships, view { node with memberships } = view node) :
    Agree view network (network.storeSchedule id schedule) :=
  network.agree_storeSchedule_of_members id schedule (fun node => same node _)
    fun node => same node _

theorem graph?_storeSchedule (other : GraphId) :
    (network.storeSchedule id schedule).graph? other =
      if id = other then
        (network.graph? other).map fun graph =>
          { graph with
            roster := schedule
            schedule := schedule
            revision := graph.revision + 1
            isFresh := true }
      else network.graph? other := by
  rw [storeSchedule, graph?_report, graph?_modifyGraph, graph?_joinAll, graph?_leaveAll]

theorem graphs_storeSchedule :
    (network.storeSchedule id schedule).graphs =
      network.graphs.modify id (GraphRecord.modifyLive fun graph =>
        { graph with
          roster := schedule
          schedule := schedule
          revision := graph.revision + 1
          isFresh := true }) := by
  rw [storeSchedule, report, modifyGraph]
  dsimp only
  rw [graphs_joinAll, graphs_leaveAll]

/-- The nodes of a stored schedule are the roster of the graph, if there is one. -/
theorem roster_storeSchedule (other : GraphId) :
    ((network.storeSchedule id schedule).info other).roster =
      if other = id ∧ (network.graph? id).isSome then schedule
      else (network.info other).roster := by
  rw [info, info?, graphs_storeSchedule, Store.get?_modify, info, info?, graph?]
  by_cases same : id = other
  · subst same
    rw [if_pos rfl]
    simp only [true_and]
    rcases network.graphs.get? id with _ | ⟨graph | retained⟩ <;> rfl
  · rw [if_neg same, if_neg fun both => same both.1.symm]

/-- Where there is no graph, an empty schedule is stored without effect on nodes. -/
theorem memberships_storeSchedule_nil (absent : network.graph? id = none) (node : NodeId) :
    (network.storeSchedule id []).memberships node = network.memberships node := by
  have noRoster : (network.graph id).roster = [] := by
    rw [Network.graph, absent]
    rfl
  rw [storeSchedule, noRoster]
  rfl

theorem nextId_storeSchedule :
    (network.storeSchedule id schedule).nodes.nextId = network.nodes.nextId := by
  have left (nodes : List NodeId) (network : Network) :
      (nodes.foldl (leave id) network).nodes.nextId = network.nodes.nextId :=
    network.view_foldl (·.nodes.nextId) (leave id) (fun _ _ => nextId_modifyNode _ _ _) nodes
  have joined (nodes : List NodeId) (network : Network) :
      (nodes.foldl (join id) network).nodes.nextId = network.nodes.nextId :=
    network.view_foldl (·.nodes.nextId) (join id) (fun _ _ => nextId_modifyNode _ _ _) nodes
  exact (joined _ _).trans (left _ _)

/-- Storing a schedule changes neither boundaries nor other graphs. -/
theorem of_graph?_storeSchedule {other : GraphId} {graph : Graph}
    (found : (network.storeSchedule id schedule).graph? other = some graph) :
    ∃ former, network.graph? other = some former ∧ graph.boundary = former.boundary ∧
      graph.currentRoots = former.currentRoots ∧
      (other = id ∧ graph.schedule = schedule ∧ graph.roster = schedule ∨
        other ≠ id ∧ graph = former) := by
  rw [graph?_storeSchedule] at found
  split at found
  next same =>
    obtain ⟨former, formerly, rfl⟩ := Option.map_eq_some_iff.mp found
    have boundary (part : Boundary) :
        Graph.boundary { former with
          roster := schedule
          schedule := schedule
          revision := former.revision + 1
          isFresh := true } part = former.boundary part := by
      cases part <;> rfl
    exact ⟨former, formerly, funext boundary, rfl, Or.inl ⟨same.symm, rfl, rfl⟩⟩
  next different => exact ⟨graph, found, rfl, rfl, Or.inr ⟨Ne.symm different, rfl⟩⟩

/-- A live node of the schedule comes to know the graph unless it did before, and
one that left forgets it. -/
theorem memberships_leave_join {leaving schedule : List NodeId} (nodup : schedule.Nodup)
    {node : NodeId} (alive : network.Alive node) :
    let after := leaving.foldl (leave id) network
    ((schedule.filter (id ∉ after.memberships ·)).foldl (join id) after).memberships node =
      if node ∈ schedule ∧ id ∉ after.memberships node then after.memberships node ++ [id]
      else after.memberships node := by
  intro after
  have agree : Agree Node.name network after := agree_leaveAll network id leaving fun _ => rfl
  rw [memberships_joinAll after id (nodup.filter _) ((agree.alive_iff node).mpr alive)]
  simp only [List.mem_filter, decide_eq_true_eq]

/-- Appending an element that is wanted and missing to a list without repetitions
that has it only if it is wanted. -/
theorem nodup_append_missing {known : List Nat} {id : Nat} {wanted : Prop}
    [Decidable wanted] (once : known.Nodup) (only : id ∈ known → wanted) :
    (if wanted ∧ id ∉ known then known ++ [id] else known).Nodup ∧
      ∀ other, other ∈ (if wanted ∧ id ∉ known then known ++ [id] else known) ↔
        if other = id then wanted else other ∈ known := by
  by_cases missing : wanted ∧ id ∉ known
  · rw [if_pos missing]
    refine ⟨List.nodup_append.mpr ⟨once, by simp, ?_⟩, fun other => ?_⟩
    · intro first member second single same
      rw [List.mem_singleton] at single
      exact missing.2 (single ▸ same ▸ member)
    · by_cases same : other = id <;> simp [same, missing.1]
  · rw [if_neg missing]
    refine ⟨once, fun other => ?_⟩
    by_cases same : other = id
    · rw [if_pos same, same]
      exact ⟨only, fun want => by_contra fun absent => missing ⟨want, absent⟩⟩
    · rw [if_neg same]

/-- A live node knows the graph of a stored schedule exactly if it is scheduled, given
that only nodes of the former roster knew it. -/
theorem memberships_storeSchedule {schedule : List NodeId} (nodup : schedule.Nodup)
    {node : NodeId} (alive : network.Alive node)
    (known : id ∈ network.memberships node → node ∈ (network.graph id).roster)
    (once : (network.memberships node).Nodup) :
    ((network.storeSchedule id schedule).memberships node).Nodup ∧
      ∀ other, other ∈ (network.storeSchedule id schedule).memberships node ↔
        if other = id then node ∈ schedule else other ∈ network.memberships node := by
  have marked : (marks network.nodes.nextId schedule).getD node false = true ↔
      node ∈ schedule := by
    obtain ⟨found, present⟩ := alive
    rw [getD_marks, and_iff_right_iff_imp]
    exact fun _ => Store.lt_nextId present
  let leaving := (network.graph id).roster.filter fun node =>
    !(marks network.nodes.nextId schedule).getD node false
  have leaves : node ∈ leaving ↔ node ∈ (network.graph id).roster ∧ node ∉ schedule := by
    rw [List.mem_filter, Bool.not_eq_true', ← Bool.not_eq_true, marked]
  have joined : (network.storeSchedule id schedule).memberships node = _ :=
    memberships_leave_join network id nodup alive
  have left := memberships_leaveAll network id leaving node
  have leftOnce : ((leaving.foldl (leave id) network).memberships node).Nodup := by
    rw [left]
    split
    · exact once.filter _
    · exact once
  have leftOnly : id ∈ (leaving.foldl (leave id) network).memberships node →
      node ∈ schedule := by
    intro knows
    rw [left] at knows
    split at knows
    · simp at knows
    next stays => exact by_contra fun absent => stays (leaves.mpr ⟨known knows, absent⟩)
  rw [joined]
  apply (nodup_append_missing leftOnce leftOnly).imp_right
  intro iffs other
  apply (iffs other).trans
  split
  · rfl
  next different =>
    rw [left]
    split
    · simp [different]
    · rfl

end StoredSchedule

section GraphsAndNodes

variable (network : Network)

theorem graph?_recordRoots (id other : GraphId) :
    (network.recordRoots id).graph? other =
      if id = other then
        (network.graph? other).map fun graph => { graph with roots := graph.currentRoots }
      else network.graph? other :=
  graph?_modifyGraph _ _ _ _

theorem nodes_touchBoundary (id : GraphId) : (network.touchBoundary id).nodes = network.nodes := by
  rw [touchBoundary]
  split <;> rfl

theorem node?_touchBoundary (id : GraphId) (node : NodeId) :
    (network.touchBoundary id).node? node = network.node? node := by
  rw [node?, nodes_touchBoundary, node?]

/-- A changed boundary makes the schedule stale and the recorded roots current. -/
theorem graph?_touchBoundary (id other : GraphId) :
    (network.touchBoundary id).graph? other =
      if id = other then
        (network.graph? other).map fun graph =>
          { graph with isFresh := false, roots := graph.currentRoots }
      else network.graph? other := by
  rw [touchBoundary]
  rw [graph?_recordRoots]
  by_cases same : id = other
  · subst same
    rw [if_pos rfl, if_pos rfl]
    by_cases fresh : (network.graph id).isFresh
    · rw [if_pos fresh, graph?_report, graph?_modifyGraph, if_pos rfl, Option.map_map]
      rfl
    · rw [if_neg fresh]
      cases found : network.graph? id with
      | none => rfl
      | some graph =>
          rw [graph_of_graph? found, Bool.not_eq_true] at fresh
          rw [Option.map_some, Option.map_some, ← fresh]
  · rw [if_neg same, if_neg same]
    split
    · rw [graph?_report, graph?_modifyGraph, if_neg same]
    · rfl

theorem roster_touchBoundary (id other : GraphId) :
    ((network.touchBoundary id).info other).roster = (network.info other).roster := by
  have recorded (network : Network) :
      ((network.recordRoots id).info other).roster = (network.info other).roster :=
    network.roster_modifyGraph other id fun _ => rfl
  rw [touchBoundary]
  split
  · exact (recorded _).trans (network.roster_modifyGraph other id fun _ => rfl)
  · exact recorded network

/-- A changed part of a boundary, with the schedule stale and the roots current. -/
theorem graph?_modifyBoundary (id other : GraphId) (part : Boundary)
    (change : List NodeId → List NodeId) :
    ((network.modifyGraph id (·.modifyBoundary part change)).touchBoundary id).graph? other =
      if id = other then
        (network.graph? other).map fun graph =>
          { graph.modifyBoundary part change with
            isFresh := false
            roots := (graph.modifyBoundary part change).currentRoots }
      else network.graph? other := by
  rw [graph?_touchBoundary, graph?_modifyGraph]
  split
  · rw [Option.map_map]
    rfl
  · rfl

theorem graph?_addGraph (graph : Graph) (id : GraphId) :
    (network.addGraph graph).graph? id =
      if id = network.graphs.nextId then some graph else network.graph? id := by
  rw [graph?, addGraph, Store.get?_push, graph?]
  split <;> rfl

theorem info_addGraph (graph : Graph) (id : GraphId) :
    (network.addGraph graph).info id =
      if id = network.graphs.nextId then graph.toGraphInfo else network.info id := by
  rw [info, info?, addGraph, Store.get?_push, info, info?]
  split <;> rfl

theorem graph?_retireGraph (id other : GraphId) :
    (network.retireGraph id).graph? other = if id = other then none else network.graph? other := by
  rw [graph?, retireGraph, Store.get?_modify, graph?]
  split
  · cases network.graphs.get? other <;> rfl
  · rfl

theorem retained?_retireGraph (id other : GraphId) :
    (network.retireGraph id).retained? other =
      if id = other then network.info? other else network.retained? other := by
  rw [retained?, retireGraph, Store.get?_modify, info?, retained?]
  split
  · cases network.graphs.get? other <;> rfl
  · rfl

/-- Where there is no graph, there is nothing to retire. -/
theorem retireGraph_of_absent {id : GraphId} (absent : network.graph? id = none) :
    network.retireGraph id = network := by
  have same : ∀ record, network.graphs.get? id = some record →
      GraphRecord.retained record.info = record := by
    intro record found
    cases record with
    | live graph =>
        rw [graph?, found] at absent
        cases absent
    | retained info => rfl
  have graphs : network.graphs.modify id (fun record => .retained record.info) = network.graphs :=
    Store.modify_eq_self same
  rw [retireGraph, graphs]

theorem graph?_retireGraph_eq_some {id other : GraphId} {graph : Graph} :
    (network.retireGraph id).graph? other = some graph ↔
      other ≠ id ∧ network.graph? other = some graph := by
  rw [graph?_retireGraph]
  by_cases same : id = other
  · simp [same]
  · simp [same, Ne.symm same]

theorem info_retireGraph (id other : GraphId) :
    (network.retireGraph id).info other = network.info other := by
  rw [info, info?, retireGraph, Store.get?_modify, info, info?]
  split
  · cases network.graphs.get? other <;> rfl
  · rfl

theorem graph?_dropGraph (id other : GraphId) :
    (network.dropGraph id).graph? other = if id = other then none else network.graph? other := by
  rw [graph?, dropGraph, Store.get?_erase, graph?]
  split <;> rfl

theorem retained?_dropGraph (id other : GraphId) :
    (network.dropGraph id).retained? other =
      if id = other then none else network.retained? other := by
  rw [retained?, dropGraph, Store.get?_erase, retained?]
  split <;> rfl

theorem info_dropGraph (id other : GraphId) :
    (network.dropGraph id).info other = if id = other then default else network.info other := by
  rw [info, info?, dropGraph, Store.get?_erase, info, info?]
  split <;> rfl

theorem node?_dropGraph (id : GraphId) (node : NodeId) :
    (network.dropGraph id).node? node = (network.node? node).map fun found =>
      { found with memberships := found.memberships.filter (· ≠ id) } :=
  Store.get?_mapValues _ _ _

theorem nextId_dropGraph (id : GraphId) :
    (network.dropGraph id).nodes.nextId = network.nodes.nextId :=
  network.nodes.nextId_mapValues _

theorem graph?_dropGraph_eq_some {id other : GraphId} {graph : Graph} :
    (network.dropGraph id).graph? other = some graph ↔
      other ≠ id ∧ network.graph? other = some graph := by
  rw [graph?_dropGraph]
  by_cases same : id = other
  · simp [same]
  · simp [same, Ne.symm same]

theorem agree_dropGraph (id : GraphId)
    (same : ∀ (node : Node) memberships, view { node with memberships } = view node) :
    Agree view network (network.dropGraph id) := by
  intro node
  rw [node?_dropGraph, Option.map_map]
  exact congrArg (Option.map · _) (funext fun node => same node _)

theorem memberships_dropGraph (id : GraphId) (node : NodeId) :
    (network.dropGraph id).memberships node = (network.memberships node).filter (· ≠ id) := by
  rw [memberships, node?_dropGraph, memberships]
  cases network.node? node <;> rfl

theorem get?_graphs_nextId : network.graphs.get? network.graphs.nextId = none := by
  cases found : network.graphs.get? network.graphs.nextId with
  | none => rfl
  | some record => exact absurd (Store.lt_nextId found) (Nat.lt_irrefl _)

theorem graph?_nextId : network.graph? network.graphs.nextId = none := by
  rw [graph?, get?_graphs_nextId]
  rfl

theorem info_nextId : network.info network.graphs.nextId = default := by
  rw [info, info?, get?_graphs_nextId]
  rfl

section NewOutput

/-- The network with a new result of a graph, which reads the port. -/
def withOutput (id : GraphId) (port : OutputPort) : Network :=
  let extended := network.addNode (defaultName .result network.nodes.nextId) .result [port]
    [network.tensorType port]
  let touched := (extended.modifyGraph id
    (·.modifyBoundary .results (· ++ [network.nodes.nextId]))).touchBoundary id
  touched.report (.outputAdded (touched.graph id).name (touched.outputLabel port))

variable (id : GraphId) (port : OutputPort)

/-- The new result is seen as it was made, and a known node as before, by a view that does not
show consumers. -/
theorem node?_withOutput
    (same : ∀ (node : Node) index change, view (node.reconsume index change) = view node)
    (node : NodeId) :
    ((network.withOutput id port).node? node).map view =
      if node = network.nodes.nextId then
        some (view (freshNode (defaultName .result network.nodes.nextId) .result [port]
          [network.tensorType port]))
      else (network.node? node).map view := by
  rw [withOutput, node?_report, node?_touchBoundary, node?_modifyGraph]
  exact network.node?_addNode _ .result [port] _ same node

theorem elim_withOutput
    (same : ∀ (node : Node) index change, view (node.reconsume index change) = view node)
    (otherwise : β) (node : NodeId) :
    ((network.withOutput id port).node? node).elim otherwise view =
      if node = network.nodes.nextId then
        view (freshNode (defaultName .result network.nodes.nextId) .result [port]
          [network.tensorType port])
      else (network.node? node).elim otherwise view := by
  rw [withOutput, node?_report, node?_touchBoundary, node?_modifyGraph]
  exact network.elim_addNode _ .result [port] _ same otherwise node

theorem sources_withOutput (node : NodeId) :
    (network.withOutput id port).sources node =
      if node = network.nodes.nextId then [port] else network.sources node :=
  network.elim_withOutput id port (fun _ _ _ => rfl) [] node

theorem dependencies_withOutput (node : NodeId) :
    (network.withOutput id port).dependencies node =
      if node = network.nodes.nextId then [port.node] else network.dependencies node :=
  network.elim_withOutput id port (fun _ _ _ => rfl) [] node

theorem role?_withOutput (node : NodeId) :
    (network.withOutput id port).role? node =
      if node = network.nodes.nextId then some .result else network.role? node :=
  network.node?_withOutput id port (fun _ _ _ => rfl) node

theorem alive_withOutput_iff {node : NodeId} :
    (network.withOutput id port).Alive node ↔
      node = network.nodes.nextId ∨ network.Alive node := by
  rw [alive_iff_role?, role?_withOutput, alive_iff_role?]
  split
  next same => simp [same]
  next different => simp [different]

theorem graph?_withOutput (other : GraphId) :
    (network.withOutput id port).graph? other =
      if id = other then (network.graph? other).map (·.withResult network.nodes.nextId)
      else network.graph? other := by
  rw [withOutput, graph?_report, graph?_modifyBoundary, graph?_addNode]
  rfl

end NewOutput

end GraphsAndNodes

end Network
end TensorGraph
