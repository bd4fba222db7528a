import Mathlib
import TensorGraph.Proofs.Boundaries
import TensorGraph.Proofs.Liveness
import TensorGraph.Proofs.Validation

/-!
# Building graphs

A graph is built exactly if its lists may bound one, and is then fresh.  A construction that
is refused may have come far by then: nodes know the graph already, and results were made to
give out its outputs.  The memberships vanish with the graph, and the results in the release
that follows, since nothing holds them; every other node and graph is what it was.
-/

namespace TensorGraph

open Relation

/-- The node without its membership in a graph. -/
def Node.forget (id : GraphId) (node : Node) : Node :=
  { node with memberships := node.memberships.filter (· ≠ id) }

theorem Node.forget_of_not_mem {id : GraphId} {node : Node} (outside : id ∉ node.memberships) :
    node.forget id = node := by
  have kept : node.memberships.filter (· ≠ id) = node.memberships := by
    refine List.filter_eq_self.mpr fun other member => decide_eq_true ?_
    rintro rfl
    exact outside member
  rw [forget, kept]

namespace Network

/-- The nodes have the role, and none of them comes twice. -/
def Lists (network : Network) (role : Role) (nodes : List NodeId) : Prop :=
  nodes.Nodup ∧ ∀ node ∈ nodes, network.role? node = some role

/-- The lists may bound a graph: each names nodes of its role, none of them twice; no cycle is
within reach; and every parameter within reach is declared. -/
structure Bounds (network : Network) (results sinks parameters : List NodeId) : Prop where
  listsResults : network.Lists .result results
  listsSinks : network.Lists .sink sinks
  listsParameters : network.Lists .parameter parameters
  acyclic : ∀ id, network.Reaches (results ++ sinks ++ parameters) id →
    ¬ TransGen network.DependsOn id id
  declared : ∀ id, network.Reaches (results ++ sinks ++ parameters) id →
    network.role? id = some .parameter → id ∈ parameters

section Acceptance

variable {network : Network}

theorem checkBoundary_of_nodup {role : Role} {present nodes : List NodeId}
    (roles : ∀ node ∈ nodes, network.role? node = some role) (nodup : (present ++ nodes).Nodup) :
    network.checkBoundary role present nodes = .ok () := by
  induction nodes generalizing present with
  | nil => rfl
  | cons node nodes ih =>
      obtain ⟨first, others⟩ := List.forall_mem_cons.mp roles
      have absent : node ∉ present := fun member =>
        (List.nodup_append.mp nodup).2.2 node member node (List.mem_cons_self ..) rfl
      rw [checkBoundary, if_neg (not_not.mpr first), if_neg absent]
      exact ih others (by simpa using nodup)

/-- The boundary of a new graph is accepted where it lists nodes of its role, none twice. -/
theorem checkBoundary_eq_ok_iff {role : Role} {nodes : List NodeId} :
    network.checkBoundary role [] nodes = .ok () ↔ network.Lists role nodes :=
  ⟨fun accepted => ⟨nodup_of_checkBoundary accepted List.nodup_nil,
    role?_of_checkBoundary accepted⟩,
    fun ⟨nodup, roles⟩ => checkBoundary_of_nodup roles nodup⟩

theorem Lists.alive {role : Role} {nodes : List NodeId} (lists : network.Lists role nodes) :
    ∀ node ∈ nodes, network.Alive node :=
  fun node member => alive_of_role? (lists.2 node member)

theorem alive_of_lists {results sinks parameters : List NodeId}
    (listsResults : network.Lists .result results) (listsSinks : network.Lists .sink sinks)
    (listsParameters : network.Lists .parameter parameters) :
    ∀ root ∈ results ++ sinks ++ parameters, network.Alive root := by
  intro root member
  rcases List.mem_append.mp member with earlier | inParameters
  · rcases List.mem_append.mp earlier with inResults | inSinks
    · exact listsResults.alive root inResults
    · exact listsSinks.alive root inSinks
  · exact listsParameters.alive root inParameters

end Acceptance

section Evaluation

variable {network after : Network} {results sinks parameters : List NodeId}

/-- The network with a new graph and its schedule. -/
def withGraph (network : Network) (graph : Graph) (schedule : List NodeId) : Network :=
  ((network.addGraph graph).recordRoots network.graphs.nextId).storeSchedule
    network.graphs.nextId schedule

theorem graph?_withGraph (graph : Graph) (schedule : List NodeId) (id : GraphId) :
    (network.withGraph graph schedule).graph? id =
      if id = network.graphs.nextId then some { graph with
        roots := graph.currentRoots
        roster := schedule
        schedule := schedule
        revision := graph.revision + 1
        isFresh := true }
      else network.graph? id := by
  rw [withGraph, graph?_storeSchedule, graph?_recordRoots, graph?_addGraph]
  by_cases new : id = network.graphs.nextId
  · rw [if_pos new.symm, if_pos new.symm, if_pos new, if_pos new]
    rfl
  · rw [if_neg (Ne.symm new), if_neg (Ne.symm new), if_neg new, if_neg new]

theorem role?_withGraph (graph : Graph) (schedule : List NodeId) (node : NodeId) :
    (network.withGraph graph schedule).role? node = network.role? node :=
  agree_storeSchedule _ _ schedule (fun _ _ => rfl) node

/-- A stale graph that is added has its schedule computed from its boundary. -/
theorem on_schedule_addGraph {graph : Graph} (isStale : graph.isFresh = false) :
    (Edit.schedule network.graphs.nextId).on (network.addGraph graph) =
      match network.order graph.currentRoots with
      | .ok nodes => (.ok nodes, network.withGraph graph nodes)
      | .error error =>
          (.error error, (network.addGraph graph).recordRoots network.graphs.nextId) := by
  have present : (network.addGraph graph).graph network.graphs.nextId = graph := by
    rw [Network.graph, graph?_addGraph, if_pos rfl, Option.getD_some]
  have sameOrder : (network.addGraph graph).order graph.currentRoots =
      network.order graph.currentRoots := rfl
  rw [Edit.on_schedule, present, isStale, if_neg Bool.false_ne_true, sameOrder]
  rfl

/-- What the construction checks last, on the network with the new graph. -/
theorem checkDeclared_withGraph (graph : Graph) (nodes : List NodeId) :
    (network.withGraph graph nodes).checkDeclared
        ((network.withGraph graph nodes).graph network.graphs.nextId) nodes = .ok () ↔
      ∀ node ∈ nodes, network.role? node = some .parameter → node ∈ graph.parameters := by
  have found : (network.withGraph graph nodes).graph? network.graphs.nextId = some _ :=
    (graph?_withGraph graph nodes _).trans (if_pos rfl)
  rw [checkDeclared_eq_ok_iff, graph_of_graph? found]
  simp only [isParameter, role?_withGraph, decide_eq_true_eq]

/-- A construction from accepted lists adds the graph with its schedule, or the lists may not
bound a graph. -/
theorem on_createGraph_of_lists (coherent : network.Coherent)
    (listsResults : network.Lists .result results) (listsSinks : network.Lists .sink sinks)
    (listsParameters : network.Lists .parameter parameters) :
    (∃ nodes, network.order (results ++ sinks ++ parameters) = .ok nodes ∧
      network.Ordered (results ++ sinks ++ parameters) nodes ∧
      network.Bounds results sinks parameters ∧
      (Edit.createGraph results sinks parameters).on network =
        (.ok network.graphs.nextId,
          (network.withGraph { name := Graph.defaultName, parameters, results, sinks }
            nodes).report (.graphCreated Graph.defaultName results.length sinks.length
              parameters.length))) ∨
    ∃ error, ((Edit.createGraph results sinks parameters).on network).1 = .error error ∧
      ¬ network.Bounds results sinks parameters := by
  rw [Edit.on_createGraph_of_accepted (checkBoundary_eq_ok_iff.mpr listsResults)
    (checkBoundary_eq_ok_iff.mpr listsSinks) (checkBoundary_eq_ok_iff.mpr listsParameters)]
  rw [on_schedule_addGraph rfl]
  simp only [Graph.currentRoots]
  rcases order_cases coherent.dependencies (alive_of_lists listsResults listsSinks
    listsParameters) with ⟨nodes, outcome, ordered⟩ | ⟨id, outcome, reaches, cycle⟩ <;>
    rw [outcome] <;> dsimp only
  · have declared := network.checkDeclared_withGraph
      { name := Graph.defaultName, parameters, results, sinks } nodes
    cases checked : (network.withGraph { name := Graph.defaultName, parameters, results, sinks }
        nodes).checkDeclared _ nodes with
    | ok _ =>
        refine Or.inl ⟨nodes, rfl, ordered, ?_, rfl⟩
        exact ⟨listsResults, listsSinks, listsParameters,
          fun id reaches => ordered.acyclic id ((ordered.mem_iff id).mpr reaches),
          fun id reaches => declared.mp checked id ((ordered.mem_iff id).mpr reaches)⟩
    | error error =>
        refine Or.inr ⟨error, rfl, fun bounds => ?_⟩
        have passes := declared.mpr fun node member =>
          bounds.declared node ((ordered.mem_iff node).mp member)
        rw [checked] at passes
        cases passes
  · exact Or.inr ⟨_, rfl, fun bounds => bounds.acyclic id reaches cycle⟩

/-- A graph is built exactly if the lists may bound one. -/
theorem createGraph_ok_iff (coherent : network.Coherent) :
    (∃ id, ((Edit.createGraph results sinks parameters).on network).1 = .ok id) ↔
      network.Bounds results sinks parameters := by
  constructor
  · rintro ⟨id, built⟩
    rcases Edit.on_createGraph_cases results sinks parameters network with
      ⟨error, outcome⟩ | ⟨listsResults, listsSinks, listsParameters, -⟩
    · rw [outcome] at built
      cases built
    · rcases on_createGraph_of_lists coherent (checkBoundary_eq_ok_iff.mp listsResults)
        (checkBoundary_eq_ok_iff.mp listsSinks) (checkBoundary_eq_ok_iff.mp listsParameters) with
        ⟨nodes, -, -, bounds, -⟩ | ⟨error, refused, -⟩
      · exact bounds
      · rw [refused] at built
        cases built
  · intro bounds
    rcases on_createGraph_of_lists coherent bounds.listsResults bounds.listsSinks
      bounds.listsParameters with ⟨nodes, -, -, -, outcome⟩ | ⟨error, -, unbounded⟩
    · exact ⟨_, congrArg Prod.fst outcome⟩
    · exact absurd bounds unbounded

/-- A graph that was built is fresh, its schedule is the order of its boundary, and exactly
the nodes of the schedule know it. -/
theorem built_of_on_createGraph (coherent : network.Coherent) {id : GraphId}
    (outcome : (Edit.createGraph results sinks parameters).on network = (.ok id, after)) :
    ∃ graph, after.graph? id = some graph ∧ network.graph? id = none ∧ graph.isFresh ∧
      (graph.results = results ∧ graph.sinks = sinks ∧ graph.parameters = parameters) ∧
      network.order (results ++ sinks ++ parameters) = .ok graph.schedule ∧
      network.Ordered (results ++ sinks ++ parameters) graph.schedule ∧
      graph.roster = graph.schedule ∧
      ∀ node, id ∈ after.memberships node ↔ node ∈ graph.schedule := by
  have bounds := (createGraph_ok_iff coherent).mp ⟨id, congrArg Prod.fst outcome⟩
  have coherentAfter : after.Coherent := by
    have follows := Edit.follows_createGraph results sinks parameters network
    rw [outcome] at follows
    exact coherent.of_moves follows
  rcases on_createGraph_of_lists coherent bounds.listsResults bounds.listsSinks
    bounds.listsParameters with ⟨nodes, ordered, sorted, -, built⟩ | ⟨error, -, unbounded⟩
  · obtain ⟨same, stored⟩ := Prod.mk.inj (built.symm.trans outcome)
    obtain rfl := Except.ok.inj same
    have found : after.graph? network.graphs.nextId =
        (network.withGraph { name := Graph.defaultName, parameters, results, sinks }
          nodes).graph? network.graphs.nextId := by
      rw [← stored, graph?_report]
    rw [graph?_withGraph, if_pos rfl] at found
    refine ⟨_, found, network.graph?_nextId, rfl, ⟨rfl, rfl, rfl⟩, ordered, sorted, rfl,
      fun node => ?_⟩
    exact coherentAfter.knows_iff found
  · exact absurd bounds unbounded

end Evaluation

section Refusal

/-- Every node and every graph is what it was, and so is what is left of a dropped one. -/
structure Same (before after : Network) : Prop where
  nodes : ∀ id, after.node? id = before.node? id
  graphs : ∀ id, after.graphs.get? id = before.graphs.get? id

instance : IsPreorder Network Same where
  refl _ := ⟨fun _ => rfl, fun _ => rfl⟩
  trans _ _ _ first second :=
    ⟨fun id => (second.nodes id).trans (first.nodes id),
      fun id => (second.graphs id).trans (first.graphs id)⟩

/-- Nothing has changed but one graph and the memberships in it. -/
structure Beside (id : GraphId) (before after : Network) : Prop where
  nodes : Agree (Node.forget id) before after
  graphs : ∀ other, other ≠ id → after.graphs.get? other = before.graphs.get? other

variable {id : GraphId}

instance : IsPreorder Network (Beside id) where
  refl network := ⟨.refl _ network, fun _ _ => rfl⟩
  trans _ _ _ first second :=
    ⟨first.nodes.trans second.nodes,
      fun other apart => (second.graphs other apart).trans (first.graphs other apart)⟩

variable (network : Network)

theorem beside_addGraph (graph : Graph) :
    Beside network.graphs.nextId network (network.addGraph graph) where
  nodes := .of_node?_eq fun _ => rfl
  graphs other apart := by rw [addGraph, Store.get?_push, if_neg apart]

theorem beside_modifyGraph (change : Graph → Graph) :
    Beside id network (network.modifyGraph id change) where
  nodes := .of_node?_eq fun _ => rfl
  graphs other apart := by rw [modifyGraph, Store.get?_modify, if_neg (Ne.symm apart)]

theorem beside_storeSchedule (schedule : List NodeId) :
    Beside id network (network.storeSchedule id schedule) where
  nodes := by
    refine network.agree_storeSchedule_of_members id schedule (fun node => ?_) fun node => ?_
    · simp [Node.forget]
    · simp [Node.forget]
  graphs other apart := by rw [graphs_storeSchedule, Store.get?_modify, if_neg (Ne.symm apart)]

theorem beside_report (event : Event) : Beside id network (network.report event) :=
  ⟨.of_node?_eq fun _ => rfl, fun _ _ => rfl⟩

theorem beside_schedule (network : Network) :
    Beside id network ((Edit.schedule id).on network).2 :=
  Edit.within_schedule (beside_modifyGraph · _) beside_storeSchedule network

variable {network} {after : Network}

/-- Dropping a graph that is new leaves nothing of it. -/
theorem Beside.same_dropGraph (beside : Beside id network after) (coherent : network.Coherent)
    (new : network.graphs.get? id = none) : Same network (after.dropGraph id) where
  nodes node := by
    have dropped : ((after.dropGraph id).node? node) = (after.node? node).map (Node.forget id) :=
      after.node?_dropGraph id node
    rw [dropped, beside.nodes node]
    cases found : network.node? node with
    | none => rfl
    | some former =>
        have outside : id ∉ former.memberships := by
          intro known
          have knows : id ∈ network.memberships node := by rwa [memberships, found]
          have listed := coherent.mem_roster_of_knows knows
          rw [info, info?, new] at listed
          cases listed
        rw [Option.map_some, Node.forget_of_not_mem outside]
  graphs other := by
    rw [dropGraph, Store.get?_erase]
    split
    next same => rw [← same, new]
    next apart => exact beside.graphs other (Ne.symm apart)

/-- A construction that is refused leaves every node and every graph as it was. -/
theorem same_of_refused (coherent : network.Coherent) {results sinks parameters : List NodeId}
    {error : GraphError}
    (refused : (Edit.createGraph results sinks parameters).on network = (.error error, after)) :
    Same network after := by
  rcases Edit.on_createGraph_cases results sinks parameters network with
    ⟨other, outcome⟩ | ⟨-, -, -, scheduled, asked, ⟨other, outcome⟩ | ⟨nodes, -, outcome⟩⟩ <;>
    obtain ⟨same, rfl⟩ := Prod.mk.inj (outcome.symm.trans refused)
  · exact refl_of Same network
  · refine Beside.same_dropGraph ?_ coherent network.get?_graphs_nextId
    rw [asked]
    exact trans_of (Beside _) (network.beside_addGraph _) (beside_schedule _)
  · cases same

/-- A graph that was built is all that is new. -/
theorem beside_of_built {results sinks parameters : List NodeId}
    (built : (Edit.createGraph results sinks parameters).on network = (.ok id, after)) :
    id = network.graphs.nextId ∧ Beside id network after := by
  rcases Edit.on_createGraph_cases results sinks parameters network with
    ⟨other, outcome⟩ | ⟨-, -, -, scheduled, asked, ⟨other, outcome⟩ | ⟨nodes, -, outcome⟩⟩ <;>
    obtain ⟨same, rfl⟩ := Prod.mk.inj (outcome.symm.trans built)
  · cases same
  · cases same
  · obtain rfl := Except.ok.inj same
    refine ⟨rfl, trans_of (Beside _) ?_ (scheduled.2.beside_report _)⟩
    rw [asked]
    exact trans_of (Beside _) (network.beside_addGraph _) (beside_schedule _)

end Refusal

section Pruning

/-- Whether a node is there. -/
def isAlive (network : Network) (id : NodeId) : Bool :=
  (network.node? id).isSome

theorem isAlive_iff {network : Network} {id : NodeId} : network.isAlive id ↔ network.Alive id :=
  Option.isSome_iff_exists

variable {stays others : NodeId → Bool} {node : Node}

theorem prune_congr
    (consumers : ∀ tensor ∈ node.outputs, ∀ input ∈ tensor.consumers,
      stays input.node = others input.node)
    (dependents : ∀ dependent ∈ node.controlDependents, stays dependent = others dependent) :
    node.prune stays = node.prune others := by
  have sameOutputs : (node.prune stays).outputs = (node.prune others).outputs :=
    List.map_congr_left fun tensor listed => by
      rw [List.filter_congr fun input member => consumers tensor listed input member]
  have sameDependents : (node.prune stays).controlDependents =
      (node.prune others).controlDependents := List.filter_congr dependents
  rw [Node.prune, Node.prune, Node.mk.injEq]
  exact ⟨rfl, rfl, rfl, sameOutputs, rfl, sameDependents, rfl⟩

variable {network : Network}

/-- What refers back to a node is alive. -/
theorem alive_of_referrers (linked : network.Linked) (mirrored : network.Mirrored) {id : NodeId}
    (found : network.node? id = some node) :
    (∀ tensor ∈ node.outputs, ∀ input ∈ tensor.consumers, network.Alive input.node) ∧
      ∀ dependent ∈ node.controlDependents, network.Alive dependent := by
  refine ⟨fun tensor listed input member => ?_, fun dependent member => ?_⟩
  · obtain ⟨index, place⟩ := List.getElem?_of_mem listed
    have consumes : input ∈ network.consumers ⟨id, index⟩ := by
      rw [consumers, tensor?, found, Option.bind_some, place]
      exact member
    exact linked.alive_of_consumer consumes
  · have listed : dependent ∈ network.controlDependents id := by rwa [controlDependents, found]
    exact mirrored.alive_dependent listed

/-- Pruning by two sets that contain the same live nodes comes to the same. -/
theorem prune_eq_of_alive (linked : network.Linked) (mirrored : network.Mirrored) {id : NodeId}
    (found : network.node? id = some node)
    (same : ∀ other, network.Alive other → stays other = others other) :
    node.prune stays = node.prune others := by
  obtain ⟨consumers, dependents⟩ := alive_of_referrers linked mirrored found
  exact prune_congr
    (fun tensor listed input member => same _ (consumers tensor listed input member))
    fun dependent member => same _ (dependents dependent member)

end Pruning

section Wrappers

/-- What was there is what it was, up to back references from what is new; and what is new are
results that give out outputs of what was there. -/
structure Wrapping (before after : Network) : Prop where
  nodes : ∀ id, before.Alive id →
    (after.node? id).map (Node.prune before.isAlive) = before.node? id
  wrappers : ∀ id, after.Alive id → ¬ before.Alive id →
    after.role? id = some .result ∧ ∀ dependency ∈ after.dependencies id, before.Alive dependency
  graphs : ∀ id, after.graphs.get? id = before.graphs.get? id

variable {base network after : Network}

theorem wrapping_self (linked : network.Linked) (mirrored : network.Mirrored) :
    Wrapping network network where
  nodes id alive := by
    obtain ⟨node, found⟩ := alive
    have pruned : node.prune network.isAlive = node.prune fun _ => true :=
      prune_eq_of_alive linked mirrored found fun _ => isAlive_iff.mpr
    rw [found, Option.map_some, pruned, Node.prune_true]
  wrappers id alive dead := absurd alive dead
  graphs _ := rfl

theorem Wrapping.alive (wrapping : Wrapping base network) {id : NodeId} (alive : base.Alive id) :
    network.Alive id := by
  have same := wrapping.nodes id alive
  obtain ⟨node, found⟩ := alive
  rw [found] at same
  obtain ⟨later, there, -⟩ := Option.map_eq_some_iff.mp same
  exact ⟨later, there⟩

theorem Wrapping.graph?_eq (wrapping : Wrapping base network) (id : GraphId) :
    network.graph? id = base.graph? id := by
  rw [graph?, wrapping.graphs, graph?]

theorem Wrapping.of_same (wrapping : Wrapping base network) (same : Same network after) :
    Wrapping base after where
  nodes id alive := by rw [same.nodes, wrapping.nodes id alive]
  wrappers id alive dead := by
    rw [role?, dependencies, same.nodes]
    rw [Alive, same.nodes] at alive
    exact wrapping.wrappers id alive dead
  graphs id := by rw [same.graphs, wrapping.graphs]

/-- A result that gives out an output of what was there is one more. -/
theorem Wrapping.addNode (wrapping : Wrapping base network) {name : String} {port : OutputPort}
    {types : List TensorType} (valid : port.index < network.outputCount port.node)
    (noResult : ¬ network.isResult port.node) :
    Wrapping base (network.addNode name .result [port] types) := by
  have old {id : NodeId} (alive : base.Alive id) : id ≠ network.nodes.nextId :=
    network.ne_nextId_of_alive (wrapping.alive alive)
  have outside : base.isAlive network.nodes.nextId = false :=
    Bool.eq_false_iff.mpr fun alive => old (isAlive_iff.mp alive) rfl
  have reads : base.Alive port.node := by
    by_contra dead
    have isResult := (wrapping.wrappers port.node (alive_of_lt_outputCount valid) dead).1
    exact noResult (decide_eq_true isResult)
  refine ⟨fun id alive => ?_, fun id alive dead => ?_, fun id => ?_⟩
  · rw [network.node?_addNode_of_consumer name .result [port] types
      (fun node index input here => node.prune_reconsume (here ▸ outside) index),
      if_neg (old alive), wrapping.nodes id alive]
  · rw [role?_addNode, dependencies_addNode]
    split
    next new => exact ⟨rfl, by simpa using reads⟩
    next known =>
      exact wrapping.wrappers id (((network.alive_addNode_iff ..).mp alive).resolve_left known) dead
  · rw [graphs_addNode, wrapping.graphs]

/-- A node that was registered and released again leaves nothing behind. -/
theorem Wrapping.withdrawn (wrapping : Wrapping base network) (name : String)
    (operator : Operator) (sources : List OutputPort) :
    Wrapping base (network.withdrawn name operator sources) := by
  have dependencies : Agree Node.dependencies network (network.withdrawn name operator sources) :=
    network.agree_withdrawn name operator sources fun _ _ => rfl
  have roles : Agree (·.operator.role) network (network.withdrawn name operator sources) :=
    network.agree_withdrawn name operator sources fun _ _ => rfl
  refine ⟨fun id alive => ?_, fun id alive dead => ?_, fun id => ?_⟩
  · have within : (fun other => network.nodes.contains other && base.isAlive other) =
        base.isAlive := by
      funext other
      cases known : base.isAlive other with
      | false => exact Bool.and_false _
      | true =>
          rw [Bool.and_true]
          exact (contains_nodes network other).mpr (wrapping.alive (isAlive_iff.mp known))
    rw [node?_withdrawn, Option.map_map, ← wrapping.nodes id alive]
    congr 1
    funext node
    rw [Function.comp_apply, Node.prune_prune, within]
  · have there := wrapping.wrappers id ((dependencies.alive_iff id).mp alive) dead
    rw [dependencies.dependencies_eq id]
    exact there.imp_left (roles id).trans
  · rw [graphs_withdrawn, wrapping.graphs]

/-- Only results of what was there are made to give out outputs. -/
theorem preserves_resultFor (base : Network) (output : OutputPort) :
    (Edit.resultFor output).Within (Preserves (Wrapping base)) := by
  refine Edit.within_get_bind fun network => ?_
  split
  · exact id
  next noResult =>
    intro wrapping
    rcases Edit.on_create_cases .result [output] none network with
      ⟨error, outcome⟩ | ⟨error, outcome⟩ | ⟨types, -, valid, -, outcome⟩ <;> rw [outcome]
    · exact wrapping
    · exact wrapping.withdrawn _ _ _
    · exact wrapping.addNode (valid output (List.mem_singleton.mpr rfl)) noResult

variable {held : List NodeId}

/-- The dependencies of what was there are what they were. -/
theorem Wrapping.dependencies_eq (wrapping : Wrapping base network) {id : NodeId}
    (alive : base.Alive id) : network.dependencies id = base.dependencies id := by
  rw [dependencies, dependencies, ← wrapping.nodes id alive, Option.elim_map]
  rfl

/-- What stays in a release is what was there, if all of it was held. -/
theorem Wrapping.mem_survivors_iff (wrapping : Wrapping base network) (coherent : base.Coherent)
    (kept : base.Kept held) (grounded : ∀ id ∈ held, base.Alive id) {id : NodeId} :
    id ∈ network.survivors held ↔ base.Alive id := by
  rw [Network.mem_survivors_iff]
  constructor
  · rintro ⟨group, inGroup, members⟩
    rcases (members id inGroup).2 with (isHeld | ⟨number, graph, found, isHeld⟩) |
      ⟨holder, holderInGroup, depends⟩
    · exact grounded id isHeld
    · rw [wrapping.graph?_eq] at found
      exact coherent.alive_of_mem_held found isHeld
    · by_cases old : base.Alive holder
      · rw [DependsOn, wrapping.dependencies_eq old] at depends
        exact coherent.dependencies holder id depends
      · exact (wrapping.wrappers holder (members holder holderInGroup).1 old).2 id depends
  · intro alive
    have supported : base.Supported held id := by
      rw [← Network.mem_survivors_iff, kept, mem_ids]
      exact alive
    obtain ⟨group, inGroup, members⟩ := supported
    refine ⟨group, inGroup, fun member inGroup => ?_⟩
    obtain ⟨alive, reason⟩ := members member inGroup
    refine ⟨wrapping.alive alive, ?_⟩
    rcases reason with (isHeld | ⟨number, graph, found, isHeld⟩) |
      ⟨holder, holderInGroup, depends⟩
    · exact Or.inl (Or.inl isHeld)
    · exact Or.inl (Or.inr ⟨number, graph, (wrapping.graph?_eq number).trans found, isHeld⟩)
    · refine Or.inr ⟨holder, holderInGroup, ?_⟩
      rwa [DependsOn, wrapping.dependencies_eq (members holder holderInGroup).1]

/-- A release brings back what was there before results were made, if all of it was held. -/
theorem Wrapping.same_release (wrapping : Wrapping base network) (coherent : base.Coherent)
    (kept : base.Kept held) (grounded : ∀ id ∈ held, base.Alive id) (linked : network.Linked)
    (mirrored : network.Mirrored) : Same base (network.release held) where
  nodes id := by
    have survives {id : NodeId} : id ∈ network.survivors held ↔ base.Alive id :=
      wrapping.mem_survivors_iff coherent kept grounded
    obtain ⟨stays, marked, nodes⟩ := network.node?_release held
    rw [nodes]
    by_cases alive : base.Alive id
    · obtain ⟨node, found⟩ := wrapping.alive alive
      have same : node.prune stays = node.prune base.isAlive :=
        prune_eq_of_alive linked mirrored found fun other there =>
          Bool.eq_iff_iff.mpr ((marked other there).trans (survives.trans isAlive_iff.symm))
      rw [if_pos (survives.mpr alive), ← wrapping.nodes id alive, found, Option.map_some,
        Option.map_some, same]
    · rw [if_neg (mt survives.mp alive)]
      exact (Option.eq_none_iff_forall_ne_some.mpr fun node found => alive ⟨node, found⟩).symm
  graphs id := by rw [graphs_release, wrapping.graphs]

end Wrappers

section Commands

variable {network after : Network} {outputs : List OutputPort} {parameters : List NodeId}

/-- A construction from outputs makes results first, and then fails or builds a graph of them. -/
theorem on_createGraphFromOutputs_cases (coherent : network.Coherent) (linked : network.Linked)
    (mirrored : network.Mirrored) :
    ∃ wrapped, Wrapping network wrapped ∧ wrapped.Coherent ∧
      ((∃ error, (Edit.createGraphFromOutputs outputs parameters).on network =
        (.error error, wrapped)) ∨
      ∃ results, (Edit.createGraphFromOutputs outputs parameters).on network =
        (Edit.createGraph results [] parameters).on wrapped) := by
  have wrapping := Edit.within_mapM
    (fun output (_ : output ∈ outputs) => preserves_resultFor network output) network
  have follows := Edit.within_mapM
    (fun output (_ : output ∈ outputs) => Edit.nodeKeeping_moves.resultFor output) network
  rw [Edit.createGraphFromOutputs, Edit.on_bind]
  rcases outcome : (outputs.mapM Edit.resultFor).on network with ⟨error | results, wrapped⟩ <;>
    rw [outcome] at wrapping follows
  · exact ⟨wrapped, wrapping (wrapping_self linked mirrored), coherent.of_moves follows,
      Or.inl ⟨error, rfl⟩⟩
  · exact ⟨wrapped, wrapping (wrapping_self linked mirrored), coherent.of_moves follows,
      Or.inr ⟨results, rfl⟩⟩

/-- A construction from outputs that is refused leaves nothing but the results that it made. -/
theorem wrapping_of_refused (coherent : network.Coherent) (linked : network.Linked)
    (mirrored : network.Mirrored) {error : GraphError}
    (refused : (Edit.createGraphFromOutputs outputs parameters).on network =
      (.error error, after)) : Wrapping network after := by
  obtain ⟨wrapped, wrapping, coherent, ⟨other, outcome⟩ | ⟨results, outcome⟩⟩ :=
    on_createGraphFromOutputs_cases coherent linked mirrored
  · rw [outcome] at refused
    rwa [← (Prod.mk.inj refused).2]
  · rw [outcome] at refused
    exact wrapping.of_same (same_of_refused coherent refused)

end Commands

end Network

namespace Action

open Network

variable {session after : Session} {id : GraphId} {name handle : GivenText} {fault : Fault}

theorem beside_nameGraph (session : Session) :
    Beside id session.network ((nameGraph name id).on session).2.network := by
  cases name with
  | text name => exact session.network.beside_modifyGraph _
  | _ => exact refl_of (Beside id) session.network

/-- A graph that is not bound to its handle leaves no other one without its handle. -/
theorem bindGraph_of_fault (outcome : (bindGraph handle id).on session = (.error fault, after)) :
    after = session := by
  cases handle with
  | text handle =>
      rw [bindGraph, on_bind, on_get] at outcome
      dsimp only at outcome
      split at outcome <;> cases outcome
  | _ => exact (Prod.mk.inj outcome).2.symm

/-- A graph that is not taken over is dropped. -/
theorem introduceGraph_of_fault
    (outcome : (introduceGraph id name handle).on session = (.error fault, after)) :
    ∃ network, Beside id session.network network ∧ after.network = network.dropGraph id := by
  rw [introduceGraph, on_bind, on_orDropGraph, on_bind] at outcome
  have named : Beside id session.network ((nameGraph name id).on session).2.network :=
    beside_nameGraph session
  rcases first : (nameGraph name id).on session with ⟨other | _, between⟩ <;>
    rw [first] at outcome named <;> dsimp only at outcome named
  · obtain ⟨-, rfl⟩ := Prod.mk.inj outcome
    exact ⟨between.network, named, rfl⟩
  · rcases second : (bindGraph handle id).on between with ⟨other | _, later⟩ <;>
      rw [second] at outcome <;> dsimp only at outcome
    · obtain rfl := bindGraph_of_fault second
      obtain ⟨-, rfl⟩ := Prod.mk.inj outcome
      exact ⟨later.network, named, rfl⟩
    · cases outcome

/-- A construction that faults at any point leaves nothing but results that it made. -/
theorem wrapping_of_fault {operation : Edit GraphId} {network : Network}
    (refused : ∀ error later, operation.on session.network = (.error error, later) →
      Wrapping network later)
    (built : ∀ id later, operation.on session.network = (.ok id, later) →
      ∃ wrapped, Wrapping network wrapped ∧ wrapped.Coherent ∧ id = wrapped.graphs.nextId ∧
        Beside id wrapped later)
    (outcome : (edit operation >>= fun id => introduceGraph id name handle).on session =
      (.error fault, after)) : Wrapping network after.network := by
  rw [on_bind] at outcome
  rcases first : (edit operation).on session with ⟨other | id, between⟩ <;>
    rw [first] at outcome <;> dsimp only at outcome
  · rw [on_edit] at first
    rcases answered : operation.on session.network with ⟨error | value, later⟩ <;>
      rw [answered] at first <;> cases first
    obtain ⟨-, rfl⟩ := Prod.mk.inj outcome
    exact refused error later answered
  · obtain ⟨wrapped, wrapping, coherent, rfl, beside⟩ := built id _ (of_on_edit first)
    obtain ⟨later, besideLater, dropped⟩ := introduceGraph_of_fault outcome
    rw [dropped]
    exact wrapping.of_same ((trans_of (Beside _) beside besideLater).same_dropGraph coherent
      wrapped.get?_graphs_nextId)

end Action

/-- The commands that build a graph. -/
inductive Command.Builds : Command → Prop where
  | fromLists (results parameters sinks : List NodeId) (name handle : GivenText) :
      Builds (.createGraph results parameters sinks name handle)
  | fromOutputs (outputs : List OutputPort) (parameters : List NodeId) (name handle : GivenText) :
      Builds (.createGraphFromOutputs outputs parameters name handle)

namespace Session

open Network

variable {session after : Session}

/-- A command to build a graph that faults leaves nothing but results that it made. -/
theorem wrapping_perform (coherent : session.network.Coherent) (linked : session.network.Linked)
    (mirrored : session.network.Mirrored) {command : Command} (builds : command.Builds)
    {fault : Fault} (outcome : (Action.perform command).on session = (.error fault, after)) :
    Wrapping session.network after.network := by
  cases builds with
  | fromLists results parameters sinks name handle =>
      have itself := wrapping_self linked mirrored
      refine Action.wrapping_of_fault (fun error later refused => ?_) (fun id later built => ?_)
        outcome
      · exact itself.of_same (same_of_refused coherent refused)
      · obtain ⟨new, beside⟩ := beside_of_built built
        exact ⟨session.network, itself, coherent, new, beside⟩
  | fromOutputs outputs parameters name handle =>
      refine Action.wrapping_of_fault (fun error later refused => ?_) (fun id later built => ?_)
        outcome
      · exact wrapping_of_refused coherent linked mirrored refused
      · obtain ⟨wrapped, wrapping, coherentThere, ⟨error, outcome⟩ | ⟨results, outcome⟩⟩ :=
          on_createGraphFromOutputs_cases coherent linked mirrored
        · cases outcome.symm.trans built
        · obtain ⟨new, beside⟩ := beside_of_built (outcome.symm.trans built)
          exact ⟨wrapped, wrapping, coherentThere, new, beside⟩

/-- A command to build a graph that faults leaves every node and every graph as it was. -/
theorem Reachable.same_of_fault (reachable : session.Reachable) {command : Command}
    (builds : command.Builds) {fault : Fault}
    (outcome : session.step command = (.error fault, after)) :
    Same session.network after.network := by
  have logged : Moves session.network session.clearEvents.network := .single .logged
  have coherent : session.clearEvents.network.Coherent := reachable.coherent.of_moves logged
  have linked : session.clearEvents.network.Linked :=
    reachable.linked.of_moves logged reachable.regular
  have mirrored : session.clearEvents.network.Mirrored := reachable.mirrored.of_moves logged
  have regular : session.clearEvents.network.Regular := reachable.regular.of_moves logged
  have follows := Action.follows_perform command session.clearEvents
  have handles : ((Action.perform command).on session.clearEvents).2.held = session.held := by
    refine Action.keepsHandles_perform ?_ session.clearEvents
    cases builds <;> trivial
  rw [Session.step] at outcome
  rcases performed : (Action.perform command).on session.clearEvents with ⟨answer, between⟩
  rw [performed] at outcome follows handles
  obtain ⟨rfl, rfl⟩ := Prod.mk.inj outcome
  have wrapping := wrapping_perform coherent linked mirrored builds performed
  have same := wrapping.same_release coherent reachable.kept reachable.grounded
    (linked.of_moves follows regular) (mirrored.of_moves follows)
  have held : between.held = session.held := handles
  change Same _ (between.network.release between.held)
  rw [held]
  exact ⟨same.nodes, same.graphs⟩

/-- In every session that commands lead to, a graph is built exactly if its lists may bound
one.  It is then fresh, its stored schedule is the order of its boundary, and exactly the nodes
of the schedule know it.  A construction that is refused leaves every node and every graph as
it was, also if nodes knew the new graph by then; and so does a command that faults while it
builds a graph, also from outputs for which results were made first. -/
theorem Reachable.construction_exact (reachable : session.Reachable) :
    (∀ results sinks parameters,
      ((∃ id, ((Edit.createGraph results sinks parameters).on session.network).1 = .ok id) ↔
        session.network.Bounds results sinks parameters) ∧
      (∀ id after,
        (Edit.createGraph results sinks parameters).on session.network = (.ok id, after) →
        ∃ graph, after.graph? id = some graph ∧ session.network.graph? id = none ∧
          graph.isFresh ∧
          (graph.results = results ∧ graph.sinks = sinks ∧ graph.parameters = parameters) ∧
          session.network.order (results ++ sinks ++ parameters) = .ok graph.schedule ∧
          session.network.Ordered (results ++ sinks ++ parameters) graph.schedule ∧
          graph.roster = graph.schedule ∧
          ∀ node, id ∈ after.memberships node ↔ node ∈ graph.schedule) ∧
      ∀ error after,
        (Edit.createGraph results sinks parameters).on session.network = (.error error, after) →
        Same session.network after) ∧
    ∀ (command : Command), command.Builds → ∀ fault after,
      session.step command = (.error fault, after) → Same session.network after.network :=
  ⟨fun _ _ _ => ⟨createGraph_ok_iff reachable.coherent,
      fun _ _ built => built_of_on_createGraph reachable.coherent built,
      fun _ _ refused => same_of_refused reachable.coherent refused⟩,
    fun _ builds _ _ outcome => reachable.same_of_fault builds outcome⟩

/-- A graph of a rectifier of a parameter, and a rectifier of another parameter beside it. -/
def adjoined : Session :=
  empty.run [
    .create (.parameter { elementType := .f32, shape := .fixed [2, 3] }) [] none (.text "feed"),
    .create .relu [⟨1, 0⟩] none (.text "rectifier"),
    .create .result [⟨2, 0⟩] none (.text "outcome"),
    .createGraph [3] [1] [] .absent (.text "graph"),
    .create (.parameter { elementType := .f32, shape := .fixed [4] }) [] none (.text "second"),
    .create .relu [⟨4, 0⟩] none (.text "other")]

theorem adjoined_reachable : adjoined.Reachable :=
  ⟨_, rfl⟩

theorem answers_adjoined :
    (adjoined.step (.createGraphFromOutputs [⟨2, 0⟩, ⟨5, 0⟩] [1] .absent (.text "late"))).1 =
      .error (.refused (.undeclaredParameter ⟨4, "Parameter_4", "Parameter"⟩)) ∧
    ((Edit.createGraph [3] [] [1]).on adjoined.network).1 = .ok 2 ∧
    ((Edit.createGraph [3, 3] [] [1]).on adjoined.network).1 =
      .error (.invalidOperation (.alreadyPresent ⟨3, "Result_3", "Result"⟩)) := by
  cbv
  exact ⟨rfl, rfl⟩

/-- A graph of both rectifiers is refused, since it does not declare the second parameter,
after results were made and nodes knew it; the lists of the first graph bound another one. -/
theorem construction_adjoined :
    (adjoined.step (.createGraphFromOutputs [⟨2, 0⟩, ⟨5, 0⟩] [1] .absent (.text "late"))).1 =
      .error (.refused (.undeclaredParameter ⟨4, "Parameter_4", "Parameter"⟩)) ∧
    Same adjoined.network (adjoined.step
      (.createGraphFromOutputs [⟨2, 0⟩, ⟨5, 0⟩] [1] .absent (.text "late"))).2.network ∧
    adjoined.network.Bounds [3] [] [1] ∧ ¬ adjoined.network.Bounds [3, 3] [] [1] := by
  obtain ⟨lists, commands⟩ := adjoined_reachable.construction_exact
  obtain ⟨refused, built, repeated⟩ := answers_adjoined
  refine ⟨refused, commands _ (.fromOutputs ..) _ _ (step_eq_of_error refused),
    (lists [3] [] [1]).1.mp ⟨2, built⟩, fun bounds => ?_⟩
  obtain ⟨id, accepted⟩ := (lists [3, 3] [] [1]).1.mpr bounds
  cases repeated.symm.trans accepted

end Session
end TensorGraph
