import TensorGraph.Proofs.Dependency
import TensorGraph.Proofs.Moves

/-!
# What edits mean for schedules

Most moves change the dependencies of one node at most and leave roles,
memberships, boundaries and stored schedules alone.  A schedule that is still
fresh after such a move does not contain the node.
-/

namespace TensorGraph.Network

/-- Only the given nodes have other dependencies than before, and the graphs that
know one of them are stale. -/
structure Edits (edited : List NodeId) (before after : Network) : Prop where
  roles : ∀ id, after.role? id = before.role? id
  memberships : ∀ id, after.memberships id = before.memberships id
  dependencies : ∀ id, id ∉ edited → after.dependencies id = before.dependencies id
  targets : ∀ id ∈ edited, ∀ dependency ∈ after.dependencies id,
    dependency ∈ before.dependencies id ∨ before.Alive dependency
  numbers : before.nodes.nextId ≤ after.nodes.nextId
  courses : ∀ id, (after.graph? id).map Graph.course = (before.graph? id).map Graph.course
  rosters : ∀ id, (after.info id).roster = (before.info id).roster
  fresh : ∀ id graph, after.graph? id = some graph → graph.isFresh →
    ∃ former, before.graph? id = some former ∧ former.isFresh ∧
      ∀ node ∈ edited, id ∉ before.memberships node

variable {before between after : Network} {edited : List NodeId}

/-- The parts of a node, beside its dependencies, that schedules and boundaries
look at. -/
def standing (node : Node) : Role × List GraphId :=
  (node.operator.role, node.memberships)

theorem Agree.role?_eq (agree : Agree standing before after) (id : NodeId) :
    after.role? id = before.role? id :=
  agree.map Prod.fst id

theorem Agree.memberships_eq (agree : Agree standing before after) (id : NodeId) :
    after.memberships id = before.memberships id :=
  (agree.map Prod.snd).elim_eq id []

theorem Agree.dependencies_eq (agree : Agree Node.dependencies before after) (id : NodeId) :
    after.dependencies id = before.dependencies id :=
  agree.elim_eq id []

theorem Edits.alive_iff (edits : Edits edited before after) (id : NodeId) :
    after.Alive id ↔ before.Alive id := by
  rw [alive_iff_role?, alive_iff_role?, edits.roles]

theorem Edits.exists_former (edits : Edits edited before after) {id : GraphId} {graph : Graph}
    (found : after.graph? id = some graph) :
    ∃ former, before.graph? id = some former ∧ graph.course = former.course := by
  have same := edits.courses id
  rw [found, Option.map_some] at same
  obtain ⟨former, formerly, courses⟩ := Option.map_eq_some_iff.mp same.symm
  exact ⟨former, formerly, courses.symm⟩

/-- A change that shows neither in dependencies nor in roles and memberships, nor in
any graph but for its name and its recorded roots. -/
theorem Edits.of_agree (standings : Agree standing before after)
    (dependencies : Agree Node.dependencies before after)
    (numbers : before.nodes.nextId ≤ after.nodes.nextId)
    (courses : ∀ id, (after.graph? id).map Graph.course = (before.graph? id).map Graph.course)
    (rosters : ∀ id, (after.info id).roster = (before.info id).roster)
    (fresh : ∀ id graph, after.graph? id = some graph → graph.isFresh →
      ∃ former, before.graph? id = some former ∧ former.isFresh) :
    Edits [] before after where
  roles := standings.role?_eq
  memberships := standings.memberships_eq
  dependencies id _ := dependencies.dependencies_eq id
  targets := by simp
  numbers := numbers
  courses := courses
  rosters := rosters
  fresh id graph found isFresh := by
    obtain ⟨former, formerly, wasFresh⟩ := fresh id graph found isFresh
    exact ⟨former, formerly, wasFresh, by simp⟩

/-- A change of nodes that shows neither in dependencies nor in roles and
memberships. -/
theorem Edits.of_nodes (standings : Agree standing before after)
    (dependencies : Agree Node.dependencies before after)
    (numbers : before.nodes.nextId ≤ after.nodes.nextId) (graphs : after.graphs = before.graphs) :
    Edits [] before after :=
  .of_agree standings dependencies numbers
    (fun id => congrArg _ (graph?_eq_of_graphs graphs id))
    (fun id => congrArg _ (info_eq_of_graphs graphs id))
    fun id graph found isFresh => ⟨graph, (graph?_eq_of_graphs graphs id).symm.trans found, isFresh⟩

/-- A change of the dependencies of some nodes, after which they are touched. -/
theorem Edits.of_touch {nodes : List NodeId} (standings : Agree standing before between)
    (dependencies : ∀ id, id ∉ edited → between.dependencies id = before.dependencies id)
    (targets : ∀ id ∈ edited, ∀ dependency ∈ between.dependencies id,
      dependency ∈ before.dependencies id ∨ before.Alive dependency)
    (numbers : between.nodes.nextId = before.nodes.nextId) (graphs : between.graphs = before.graphs)
    (touched : edited ⊆ nodes) :
    Edits edited before (between.touch nodes) := by
  have same : Agree standing between (between.touch nodes) :=
    .of_node?_eq fun id => node?_touch between id nodes
  have unchanged (id : NodeId) :
      (between.touch nodes).dependencies id = between.dependencies id := by
    rw [Network.dependencies, node?_touch, Network.dependencies]
  refine
    { roles := (standings.trans same).role?_eq,
      memberships := (standings.trans same).memberships_eq,
      dependencies := fun id other => (unchanged id).trans (dependencies id other),
      targets := fun id member dependency depends =>
        targets id member dependency (unchanged id ▸ depends),
      numbers := Nat.le_of_eq
        (numbers.symm.trans (congrArg Store.nextId (nodes_touch between nodes)).symm),
      courses := fun id => ?_, rosters := fun id => ?_,
      fresh := fun id graph found isFresh => ?_ }
  · rw [graph?_touch, graph?_eq_of_graphs graphs, Option.map_map]
    congr 1
    funext graph
    rw [Function.comp_apply]
    split <;> rfl
  · rw [roster_touch, info_eq_of_graphs graphs]
  · rw [graph?_touch, graph?_eq_of_graphs graphs] at found
    obtain ⟨former, formerly, rfl⟩ := Option.map_eq_some_iff.mp found
    split at isFresh
    · cases isFresh
    next known =>
      refine ⟨former, formerly, isFresh, fun node member knows => known ?_⟩
      exact ⟨node, touched member, (standings.memberships_eq node).symm ▸ knows⟩

theorem edits_touch (network : Network) (nodes : List NodeId) :
    Edits [] network (network.touch nodes) :=
  .of_touch (.refl _ _) (fun _ _ => rfl) (by simp) rfl rfl (List.nil_subset _)

/-- Only the changed node has other dependencies. -/
theorem dependencies_modifyNode_of_ne (network : Network) {target id : NodeId}
    (change : Node → Node) (other : id ∉ [target]) :
    (network.modifyNode target change).dependencies id = network.dependencies id := by
  have different : ¬ target = id := fun same => other (by simp [same])
  rw [dependencies, node?_modifyNode, if_neg different, dependencies]

theorem dependencies_modifyNode_self {network : Network} {id : NodeId} {node : Node}
    (alive : network.node? id = some node) (change : Node → Node) :
    (network.modifyNode id change).dependencies id = (change node).dependencies := by
  rw [dependencies, node?_modifyNode, if_pos rfl, alive]
  rfl

/-- A changed node, after further changes that show in no dependencies, and a
touch. -/
theorem Edits.of_modifyNode {id : NodeId} {node : Node} (change : Node → Node)
    {nodes : List NodeId} (alive : before.node? id = some node)
    (keeps : ∀ node, standing (change node) = standing node)
    (targets : ∀ dependency ∈ (change node).dependencies,
      dependency ∈ node.dependencies ∨ before.Alive dependency)
    (standings : Agree standing (before.modifyNode id change) between)
    (dependencies : Agree Node.dependencies (before.modifyNode id change) between)
    (numbers : between.nodes.nextId = before.nodes.nextId) (graphs : between.graphs = before.graphs)
    (touched : id ∈ nodes) :
    Edits [id] before (between.touch nodes) := by
  refine .of_touch ((agree_modifyNode before id keeps).trans standings) (fun other outside => ?_)
    (fun other member dependency depends => ?_) numbers graphs (by simpa using touched)
  · rw [dependencies.dependencies_eq]
    exact dependencies_modifyNode_of_ne before change outside
  · obtain rfl : other = id := by simpa using member
    rw [dependencies.dependencies_eq, dependencies_modifyNode_self alive] at depends
    have known := targets dependency depends
    rwa [Network.dependencies, alive]

theorem alive_of_source? {network : Network} {input : InputPort} {source : OutputPort}
    (reads : network.source? input = some source) :
    ∃ node, network.node? input.node = some node ∧ node.sources[input.index]? = some source := by
  rw [source?, sources] at reads
  cases found : network.node? input.node with
  | none => simp [found] at reads
  | some node => exact ⟨node, rfl, by simpa [found] using reads⟩

theorem mem_dependencies_of_source {network : Network} {id : NodeId} {node : Node}
    (alive : network.node? id = some node) {source : OutputPort} (member : source ∈ node.sources) :
    source.node ∈ network.dependencies id := by
  rw [dependencies, alive, Option.elim_some, Node.dependencies]
  exact List.mem_append_left _ (List.mem_map_of_mem member)

theorem edits_rewire {network : Network} {input : InputPort} {former source : OutputPort}
    (valid : source.index < network.outputCount source.node)
    (reads : network.source? input = some former) :
    Edits [input.node] network (network.rewire input former source) := by
  obtain ⟨node, alive, -⟩ := alive_of_source? reads
  have rest {β : Type} {view : Node → β} (network : Network)
      (same : ∀ (node : Node) index change, view (node.reconsume index change) = view node) :
      Agree view network ((network.disconnect former input).connect source input) :=
    (agree_disconnect network former input same).trans (agree_connect _ source input same)
  refine .of_modifyNode (fun node => { node with sources := node.sources.set input.index source })
    alive (fun _ => rfl) (fun dependency depends => ?_) (rest _ fun _ _ _ => rfl)
    (rest _ fun _ _ _ => rfl) (by simp [connect, disconnect, modifyTensor]) rfl
    (List.mem_cons_self ..)
  simp only [Node.dependencies, List.mem_append, List.mem_map] at depends ⊢
  rcases depends with ⟨port, member, rfl⟩ | control
  · rcases List.mem_or_eq_of_mem_set member with kept | rfl
    · exact Or.inl (Or.inl ⟨port, kept, rfl⟩)
    · exact Or.inr (alive_of_lt_outputCount valid)
  · exact Or.inl (Or.inr control)

theorem edits_rewireAll {network : Network} {id : NodeId} {node : Node}
    {sources : List OutputPort} (alive : network.node? id = some node)
    (valid : ∀ source ∈ sources, source.index < network.outputCount source.node) :
    Edits [id] network (network.rewireAll id node.sources sources) := by
  have rest {β : Type} {view : Node → β} (network : Network)
      (same : ∀ (node : Node) index change, view (node.reconsume index change) = view node) :
      Agree view network ((network.disconnectAll id node.sources).connectAll id sources) :=
    (agree_disconnectAll network id node.sources same).trans
      (agree_connectAll _ id sources same)
  refine .of_modifyNode ({ · with sources := sources }) alive (fun _ => rfl)
    (fun dependency depends => ?_) (rest _ fun _ _ _ => rfl) (rest _ fun _ _ _ => rfl)
    (by simp) ?_ (List.mem_cons_self ..)
  · simp only [Node.dependencies, List.mem_append, List.mem_map] at depends ⊢
    rcases depends with ⟨port, member, rfl⟩ | control
    · exact Or.inr (alive_of_lt_outputCount (valid port member))
    · exact Or.inl (Or.inr control)
  · rw [graphs_connectAll, graphs_disconnectAll]
    rfl

theorem edits_addControl {network : Network} {dependent dependency : NodeId} {node : Node}
    (alive : network.node? dependent = some node) (present : network.Alive dependency) :
    Edits [dependent] network (network.addControl dependent dependency) := by
  refine .of_modifyNode
    (fun node => { node with controlDependencies := node.controlDependencies ++ [dependency] })
    alive (fun _ => rfl) (fun other depends => ?_) (agree_modifyNode _ _ fun _ => rfl)
    (agree_modifyNode _ _ fun _ => rfl)
    ((nextId_modifyNode _ _ _).trans (nextId_modifyNode _ _ _)) rfl (List.mem_cons_self ..)
  simp only [Node.dependencies, List.mem_append, List.mem_singleton] at depends ⊢
  rcases depends with source | control | rfl
  · exact Or.inl (Or.inl source)
  · exact Or.inl (Or.inr control)
  · exact Or.inr present

theorem edits_removeControl {network : Network} {dependent dependency : NodeId} {node : Node}
    (alive : network.node? dependent = some node) :
    Edits [dependent] network (network.removeControl dependent dependency) := by
  refine .of_modifyNode
    (fun node =>
      { node with controlDependencies := node.controlDependencies.filter (· ≠ dependency) })
    alive (fun _ => rfl) (fun other depends => Or.inl ?_) (agree_modifyNode _ _ fun _ => rfl)
    (agree_modifyNode _ _ fun _ => rfl)
    ((nextId_modifyNode _ _ _).trans (nextId_modifyNode _ _ _)) rfl (List.mem_cons_self ..)
  simp only [Node.dependencies, List.mem_append, List.mem_filter] at depends ⊢
  exact depends.imp_right And.left

theorem agree_forgetDependents {β : Type} {view : Node → β} (network : Network)
    (dependent : NodeId) (former : List NodeId)
    (same : ∀ (node : Node) controlDependents, view { node with controlDependents } = view node) :
    Agree view network (former.foldl (forgetDependent dependent) network) := by
  induction former generalizing network with
  | nil => exact .refl view network
  | cons dependency former ih =>
      exact (agree_modifyNode network dependency fun node => same node _).trans (ih _)

theorem graphs_forgetDependents (network : Network) (dependent : NodeId) (former : List NodeId) :
    (former.foldl (forgetDependent dependent) network).graphs = network.graphs :=
  network.view_foldl (·.graphs) (forgetDependent dependent) (fun _ _ => rfl) former

theorem nextId_forgetDependents (network : Network) (dependent : NodeId) (former : List NodeId) :
    (former.foldl (forgetDependent dependent) network).nodes.nextId = network.nodes.nextId :=
  network.view_foldl (·.nodes.nextId) (forgetDependent dependent)
    (fun _ _ => nextId_modifyNode _ _ _) former

theorem edits_clearControl {network : Network} {dependent : NodeId} {node : Node}
    (alive : network.node? dependent = some node) :
    Edits [dependent] network (network.clearControl dependent node.controlDependencies) := by
  refine .of_modifyNode ({ · with controlDependencies := [] }) alive (fun _ => rfl)
    (fun other depends => Or.inl ?_) (agree_forgetDependents _ _ _ fun _ _ => rfl)
    (agree_forgetDependents _ _ _ fun _ _ => rfl) ?_ (graphs_forgetDependents _ _ _)
    (List.mem_cons_self ..)
  · simp only [Node.dependencies, List.append_nil] at depends
    exact List.mem_append_left _ depends
  · rw [nextId_forgetDependents, nextId_modifyNode]

/-- What an edit of edges leaves alone before it touches nodes: the graphs and the log. -/
def record (network : Network) : Store GraphRecord × Array Event :=
  (network.graphs, network.events)

/-- The nodes are touched, after a change that shows neither in who knows graphs nor in graphs and
in the log. -/
def Touches (nodes : List NodeId) (before after : Network) : Prop :=
  ∃ between : Network, Agree Node.memberships before between ∧
    between.record = before.record ∧ between.touch nodes = after

section Touches

variable (network : Network)

theorem touches_touch (nodes : List NodeId) : Touches nodes network (network.touch nodes) :=
  ⟨network, .refl _ _, rfl, rfl⟩

theorem touches_rewire (input : InputPort) (former source : OutputPort) :
    Touches [input.node, former.node, source.node] network
      (network.rewire input former source) := by
  have renamed : Agree Node.memberships network (network.modifyNode input.node fun node =>
      { node with sources := node.sources.set input.index source }) :=
    agree_modifyNode network input.node fun _ => rfl
  have edges := renamed.trans ((agree_disconnect _ former input fun _ _ _ => rfl).trans
    (agree_connect _ source input fun _ _ _ => rfl))
  exact ⟨_, edges, rfl, rfl⟩

theorem touches_rewireAll (id : NodeId) (former sources : List OutputPort) :
    Touches (id :: (former.map (·.node) ++ sources.map (·.node))) network
      (network.rewireAll id former sources) := by
  have renamed : Agree Node.memberships network
      (network.modifyNode id ({ · with sources := sources })) :=
    agree_modifyNode network id fun _ => rfl
  have edges := renamed.trans ((agree_disconnectAll _ id former fun _ _ _ => rfl).trans
    (agree_connectAll _ id sources fun _ _ _ => rfl))
  refine ⟨_, edges, ?_, rfl⟩
  rw [view_connectAll _ record fun _ _ _ => rfl, view_disconnectAll _ record fun _ _ _ => rfl]
  rfl

theorem touches_addControl (dependent dependency : NodeId) :
    Touches [dependent, dependency] network (network.addControl dependent dependency) := by
  have forward : Agree Node.memberships network (network.modifyNode dependent fun node =>
      { node with controlDependencies := node.controlDependencies ++ [dependency] }) :=
    agree_modifyNode network dependent fun _ => rfl
  refine ⟨_, forward.trans ?_, ?_, rfl⟩
  · exact agree_modifyNode _ dependency fun _ => rfl
  · rfl

theorem touches_removeControl (dependent dependency : NodeId) :
    Touches [dependent, dependency] network (network.removeControl dependent dependency) := by
  have forward : Agree Node.memberships network (network.modifyNode dependent fun node =>
      { node with controlDependencies := node.controlDependencies.filter (· ≠ dependency) }) :=
    agree_modifyNode network dependent fun _ => rfl
  refine ⟨_, forward.trans ?_, ?_, rfl⟩
  · exact agree_modifyNode _ dependency fun _ => rfl
  · rfl

theorem touches_clearControl (dependent : NodeId) (former : List NodeId) :
    Touches (dependent :: former) network (network.clearControl dependent former) := by
  have forward : Agree Node.memberships network
      (network.modifyNode dependent ({ · with controlDependencies := [] })) :=
    agree_modifyNode network dependent fun _ => rfl
  refine ⟨_, forward.trans (agree_forgetDependents _ dependent former fun _ _ => rfl), ?_, rfl⟩
  exact view_foldl _ record (forgetDependent dependent) (fun _ _ => rfl) former

end Touches

theorem edits_modifyNode (network : Network) (id : NodeId) {change : Node → Node}
    (standings : ∀ node, standing (change node) = standing node)
    (dependencies : ∀ node, (change node).dependencies = node.dependencies) :
    Edits [] network (network.modifyNode id change) :=
  .of_nodes (agree_modifyNode network id standings) (agree_modifyNode network id dependencies)
    (Nat.le_of_eq (nextId_modifyNode _ _ _).symm) rfl

theorem edits_modifyGraph (network : Network) (id : GraphId) {change : Graph → Graph}
    (courses : ∀ graph, (change graph).course = graph.course)
    (fresh : ∀ graph, (change graph).isFresh = graph.isFresh) :
    Edits [] network (network.modifyGraph id change) := by
  refine .of_agree (.refl _ _) (.refl _ _) (Nat.le_refl _) (fun other => ?_) (fun other => ?_)
    fun other graph found isFresh => ?_
  · rw [graph?_modifyGraph]
    split
    · rw [Option.map_map]
      exact congrArg (Option.map · _) (funext courses)
    · rfl
  · exact network.roster_modifyGraph other id fun graph =>
      Graph.roster_eq_of_course (courses graph)
  · rw [graph?_modifyGraph] at found
    split at found
    · obtain ⟨former, formerly, rfl⟩ := Option.map_eq_some_iff.mp found
      exact ⟨former, formerly, (fresh former).symm.trans isFresh⟩
    · exact ⟨graph, found, isFresh⟩

theorem edits_withdrawn (network : Network) (name : String) (operator : Operator)
    (sources : List OutputPort) : Edits [] network (network.withdrawn name operator sources) :=
  .of_nodes (agree_withdrawn network name operator sources fun _ _ => rfl)
    (agree_withdrawn network name operator sources fun _ _ => rfl)
    (network.nextId_withdrawn name operator sources ▸ Nat.le_succ _)
    (network.graphs_withdrawn name operator sources)

theorem edits_log (network : Network) (events : Array Event) :
    Edits [] network { network with events } :=
  .of_nodes (.of_node?_eq fun _ => rfl) (.of_node?_eq fun _ => rfl) (Nat.le_refl _) rfl

/-- Declaring a type concerns the node itself only if it is the parameter that is
declared. -/
theorem edits_declare {network : Network} {id : NodeId} {node : Node} {type : TensorType}
    {update : TensorType → TensorType} (alive : network.node? id = some node)
    (parameter : node.operator = .parameter type) :
    Edits [] network (network.modifyNode id (·.declare type update)) := by
  refine .of_nodes (agree_modifyNode_of_alive alive ?_) (agree_modifyNode network id fun _ => rfl)
    (Nat.le_of_eq (nextId_modifyNode _ _ _).symm) rfl
  simp [standing, Node.declare, parameter, Operator.role]

end TensorGraph.Network
