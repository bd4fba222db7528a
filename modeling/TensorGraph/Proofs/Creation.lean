import TensorGraph.Proofs.Frames

/-!
# What a creation does

A node that is created is listed among the consumers of its sources before its output
types are inferred.  Nothing that the inference looks at has changed by then, so it gives
what it would have given before; storing what it gives makes the node that would have been
made with these types at once.  A node that is released again leaves every node as it was,
but without back references to nodes that are not there.
-/

namespace TensorGraph

namespace Operator

variable {operands : List Operand} {types : List TensorType}

theorem eq_of_infer_parameter {declared : TensorType}
    (ok : (parameter declared).infer operands = .ok types) : types = [declared] := by
  simp only [infer, bind, Except.bind, pure, Except.pure] at ok
  split at ok
  · cases ok
  · exact (Except.ok.inj ok).symm

theorem length_of_infer {operator : Operator} (ok : operator.infer operands = .ok types) :
    types.length = operator.outputCount := by
  cases operator with
  | parameter declared => simp [eq_of_infer_parameter ok, outputCount]
  | result =>
      obtain ⟨operand, -, ok⟩ := exists_of_bind_eq_ok ok
      cases ok
      rfl
  | constant elementType sizes values =>
      obtain ⟨-, -, ok⟩ := exists_of_bind_eq_ok ok
      cases ok
      rfl
  | assign stateVariable =>
      obtain ⟨-, -, ok⟩ := exists_of_bind_eq_ok ok
      cases ok
      rfl
  | relu =>
      obtain ⟨operand, -, ok⟩ := exists_of_bind_eq_ok ok
      dsimp only at ok
      split at ok <;> cases ok
      rfl
  | concat axis =>
      obtain ⟨type, -, ok⟩ := exists_of_bind_eq_ok ok
      cases ok
      rfl
  | shapeOf =>
      obtain ⟨operand, -, ok⟩ := exists_of_bind_eq_ok ok
      cases ok
      rfl
  | reshape specialZero =>
      simp only [infer] at ok
      split at ok
      · obtain ⟨type, -, ok⟩ := exists_of_bind_eq_ok ok
        cases ok
        rfl
      · cases ok

end Operator

/-- What a node shows of one of its outputs to a node that reads it. -/
def Node.shows (index : Nat) (node : Node) : Operand where
  type := (node.outputs[index]?).elim default (·.type)
  values := node.operator.constantValues?

theorem Node.shows_reconsume (index : Nat) (node : Node) (place : Nat)
    (change : List InputPort → List InputPort) :
    (node.reconsume place change).shows index = node.shows index := by
  have same : (node.reconsume place change).outputs.map (·.type) = node.outputs.map (·.type) :=
    node.map_reconsume place change fun _ _ => rfl
  have types := congrArg (·[index]?) same
  simp only [List.getElem?_map] at types
  have shown := congrArg (Option.elim · default fun type => type) types
  simp only [Option.elim_map] at shown
  exact congrArg (Operand.mk · node.operator.constantValues?) shown

/-- A consumer at a node that does not stay does not show after pruning. -/
theorem Node.prune_reconsume {stays : NodeId → Bool} {input : InputPort}
    (outside : stays input.node = false) (node : Node) (index : Nat) :
    (node.reconsume index (· ++ [input])).prune stays = node.prune stays := by
  have sameOutputs : ((node.reconsume index (· ++ [input])).prune stays).outputs =
      (node.prune stays).outputs := by
    apply List.ext_getElem?
    intro place
    simp only [prune, reconsume, List.getElem?_map, List.getElem?_modify]
    split <;> simp [Function.comp_def, outside]
  rw [prune, prune, Node.mk.injEq]
  exact ⟨rfl, rfl, rfl, sameOutputs, rfl, rfl, rfl⟩

theorem Node.prune_prune (stays others : NodeId → Bool) (node : Node) :
    (node.prune stays).prune others = node.prune fun id => stays id && others id := by
  simp [Node.prune, Function.comp_def, List.filter_filter, Bool.and_comm]

namespace Network

variable {β : Type} {view : Node → β} (network : Network)

theorem operand_eq (port : OutputPort) :
    network.operand port =
      (network.node? port.node).elim ⟨default, none⟩ (Node.shows port.index) := by
  rw [operand, tensorType, tensor?]
  cases network.node? port.node <;> rfl

section Connected

variable {network} {sources : List OutputPort} {target : NodeId}

theorem mem_sources_of_mem_edges {id : NodeId} {edge : OutputPort × InputPort}
    (member : edge ∈ edges id sources) : edge.1 ∈ sources := by
  obtain ⟨index, below, rfl⟩ := List.mem_mapIdx.mp member
  exact List.getElem_mem below

/-- Connecting inputs does not concern a node that they do not read. -/
theorem connectAll_modifyNode (unread : ∀ source ∈ sources, source.node ≠ target) (id : NodeId)
    (change : Node → Node) :
    (network.modifyNode target change).connectAll id sources =
      (network.connectAll id sources).modifyNode target change := by
  have apart : ∀ edge ∈ edges id sources, edge.1.node ≠ target :=
    fun edge member => unread edge.1 (mem_sources_of_mem_edges member)
  rw [connectAll, connectAll]
  generalize edges id sources = pairs at apart ⊢
  induction pairs generalizing network with
  | nil => rfl
  | cons edge pairs ih =>
      obtain ⟨here, others⟩ := List.forall_mem_cons.mp apart
      obtain ⟨source, input⟩ := edge
      have swapped : (network.modifyNode target change).connect source input =
          (network.connect source input).modifyNode target change :=
        network.modifyNode_comm (Ne.symm here) change _
      rw [List.foldl_cons, List.foldl_cons]
      dsimp only
      rw [swapped]
      exact ih others

theorem node?_connectAll (unread : ∀ source ∈ sources, source.node ≠ target) (id : NodeId) :
    (network.connectAll id sources).node? target = network.node? target := by
  have apart : ∀ edge ∈ edges id sources, edge.1.node ≠ target :=
    fun edge member => unread edge.1 (mem_sources_of_mem_edges member)
  rw [connectAll]
  generalize edges id sources = pairs at apart ⊢
  induction pairs generalizing network with
  | nil => rfl
  | cons edge pairs ih =>
      obtain ⟨here, others⟩ := List.forall_mem_cons.mp apart
      exact (ih others).trans ((network.node?_modifyNode _ _ _).trans (if_neg here))

end Connected

section NewNode

/-- The node that is made under the next number. -/
def freshNode (name : String) (operator : Operator) (sources : List OutputPort)
    (types : List TensorType) : Node where
  name := name
  operator := operator
  sources := sources
  outputs := types.map ({ type := ·, names := [], consumers := [] })
  controlDependencies := []
  controlDependents := []
  memberships := []

/-- A new node is seen as it was made, and a known node as before, by a view that does not
show consumers at the new node. -/
theorem node?_addNode_of_consumer (name : String) (operator : Operator)
    (sources : List OutputPort) (types : List TensorType)
    (same : ∀ (node : Node) index (input : InputPort), input.node = network.nodes.nextId →
      view (node.reconsume index (· ++ [input])) = view node)
    (id : NodeId) :
    ((network.addNode name operator sources types).node? id).map view =
      if id = network.nodes.nextId then some (view (freshNode name operator sources types))
      else (network.node? id).map view := by
  rw [addNode, agree_connectAll_of_consumer _ _ _ same id]
  change ((Store.push _ _).get? id).map view = _
  rw [Store.get?_push]
  split <;> rfl

theorem node?_addNode (name : String) (operator : Operator) (sources : List OutputPort)
    (types : List TensorType)
    (same : ∀ (node : Node) index change, view (node.reconsume index change) = view node)
    (id : NodeId) :
    ((network.addNode name operator sources types).node? id).map view =
      if id = network.nodes.nextId then some (view (freshNode name operator sources types))
      else (network.node? id).map view :=
  network.node?_addNode_of_consumer name operator sources types
    (fun node index _ _ => same node index _) id

theorem elim_addNode (name : String) (operator : Operator) (sources : List OutputPort)
    (types : List TensorType)
    (same : ∀ (node : Node) index change, view (node.reconsume index change) = view node)
    (otherwise : β) (id : NodeId) :
    ((network.addNode name operator sources types).node? id).elim otherwise view =
      if id = network.nodes.nextId then view (freshNode name operator sources types)
      else (network.node? id).elim otherwise view := by
  have nodes := congrArg (Option.elim · otherwise fun value => value)
    (network.node?_addNode name operator sources types same id)
  rw [Option.elim_map] at nodes
  apply nodes.trans
  split
  · rfl
  · exact Option.elim_map _

theorem graph?_addNode (name : String) (operator : Operator) (sources : List OutputPort)
    (types : List TensorType) (id : GraphId) :
    (network.addNode name operator sources types).graph? id = network.graph? id := by
  rw [addNode]
  rw [graph?_connectAll]
  rfl

theorem not_alive_nextId : ¬ network.Alive network.nodes.nextId := by
  rintro ⟨node, found⟩
  exact absurd (Store.lt_nextId found) (Nat.lt_irrefl _)

variable (name : String) (operator : Operator) (sources : List OutputPort)
  (types : List TensorType)

theorem dependencies_addNode (id : NodeId) :
    (network.addNode name operator sources types).dependencies id =
      if id = network.nodes.nextId then sources.map (·.node) else network.dependencies id := by
  have made : (freshNode name operator sources types).dependencies = sources.map (·.node) := by
    simp [freshNode, Node.dependencies]
  rw [← made]
  exact network.elim_addNode name operator sources types (fun _ _ _ => rfl) [] id

theorem sources_addNode (id : NodeId) :
    (network.addNode name operator sources types).sources id =
      if id = network.nodes.nextId then sources else network.sources id :=
  network.elim_addNode name operator sources types (fun _ _ _ => rfl) [] id

theorem memberships_addNode (id : NodeId) :
    (network.addNode name operator sources types).memberships id =
      if id = network.nodes.nextId then [] else network.memberships id :=
  network.elim_addNode name operator sources types (fun _ _ _ => rfl) [] id

theorem role?_addNode (id : NodeId) :
    (network.addNode name operator sources types).role? id =
      if id = network.nodes.nextId then some operator.role else network.role? id :=
  network.node?_addNode name operator sources types (fun _ _ _ => rfl) id

theorem ne_nextId_of_alive {id : NodeId} (alive : network.Alive id) :
    id ≠ network.nodes.nextId :=
  fun same => network.not_alive_nextId (same ▸ alive)

theorem alive_addNode_iff {id : NodeId} :
    (network.addNode name operator sources types).Alive id ↔
      id = network.nodes.nextId ∨ network.Alive id := by
  rw [alive_iff_role?, role?_addNode, alive_iff_role?]
  split
  next same => simp [same]
  next different => simp [different]

theorem graphs_addNode :
    (network.addNode name operator sources types).graphs = network.graphs :=
  graphs_connectAll _ _ sources

theorem events_addNode :
    (network.addNode name operator sources types).events = network.events :=
  view_connectAll _ (·.events) (fun _ _ _ => rfl) _ sources

theorem nextId_addNode :
    (network.addNode name operator sources types).nodes.nextId = network.nodes.nextId + 1 := by
  have connected : (network.addNode name operator sources types).nodes.nextId =
      (network.nodes.push (freshNode name operator sources types)).nextId :=
    view_connectAll _ (·.nodes.nextId) (fun _ _ _ => Store.nextId_modify ..) _ sources
  exact connected.trans (network.nodes.nextId_push _)

section Valid

variable {network sources}
variable (valid : ∀ source ∈ sources, source.index < network.outputCount source.node)

include valid

theorem ne_nextId_of_valid {source : OutputPort} (member : source ∈ sources) :
    source.node ≠ network.nodes.nextId :=
  network.ne_nextId_of_alive (alive_of_lt_outputCount (valid source member))

/-- What the sources of a new node show to it is what they showed before. -/
theorem infer_addNode (name : String) (operator : Operator) (types : List TensorType) :
    (network.addNode name operator sources types).infer operator sources =
      network.infer operator sources := by
  refine congrArg operator.infer (List.map_congr_left fun source member => ?_)
  rw [operand_eq, operand_eq, elim_addNode _ _ _ _ _ (Node.shows_reconsume source.index),
    if_neg (ne_nextId_of_valid valid member)]

/-- A new node is made in the same way whether its output types are given at once or later. -/
theorem addNode_withTypes {name : String} {operator : Operator} {others types : List TensorType}
    (lengths : types.length = others.length) :
    (network.addNode name operator sources others).modifyNode network.nodes.nextId
      (·.withTypes types) = network.addNode name operator sources types := by
  have made : (freshNode name operator sources others).withTypes types =
      freshNode name operator sources types := by
    have outputs : (freshNode name operator sources others).outputs.zipWith
        (fun tensor type => { tensor with type }) types =
          (freshNode name operator sources types).outputs := by
      apply List.ext_getElem
      · simp [freshNode, lengths]
      · intro place _ _
        simp [freshNode]
    rw [Node.withTypes, outputs]
    rfl
  rw [addNode, ← connectAll_modifyNode fun source => ne_nextId_of_valid valid, addNode]
  have pushed := network.nodes.modify_push (freshNode name operator sources others)
    (·.withTypes types)
  rw [made] at pushed
  exact congrArg (fun nodes : Store Node =>
    { network with nodes }.connectAll network.nodes.nextId sources) pushed

theorem node?_addNode_nextId (name : String) (operator : Operator) (types : List TensorType) :
    (network.addNode name operator sources types).node? network.nodes.nextId =
      some (freshNode name operator sources types) := by
  rw [addNode, node?_connectAll fun source => ne_nextId_of_valid valid]
  exact (Store.get?_push _ _ _).trans (if_pos rfl)

end Valid

end NewNode

section Withdrawn

theorem contains_nodes (network : Network) (id : NodeId) :
    network.nodes.contains id = true ↔ network.Alive id :=
  Option.isSome_iff_exists

/-- The network after a node was registered and released again. -/
def withdrawn (name : String) (operator : Operator) (sources : List OutputPort) : Network :=
  (network.register name operator sources).discard network.nodes.nextId

variable (name : String) (operator : Operator) (sources : List OutputPort)

/-- All nodes are left but the one that was registered. -/
theorem stays_withdrawn (id : NodeId) :
    let registered := network.register name operator sources
    let staying := registered.nodes.ids.erase network.nodes.nextId
    (marks registered.nodes.nextId staying).getD id false = network.nodes.contains id := by
  intro registered
  have alive : id ∈ registered.nodes.ids ↔ id = network.nodes.nextId ∨ network.Alive id :=
    mem_ids.trans (network.alive_addNode_iff ..)
  rw [Bool.eq_iff_iff, getD_marks, contains_nodes, (Store.nodup_ids _).mem_erase_iff, alive]
  constructor
  · rintro ⟨-, different, same | found⟩
    · exact absurd same different
    · exact found
  · intro found
    exact ⟨lt_nextId_of_mem_ids registered id (alive.mpr (Or.inr found)),
      network.ne_nextId_of_alive found, Or.inr found⟩

/-- A node that was withdrawn leaves every node as it was, but without back references to
nodes that are not there. -/
theorem node?_withdrawn (id : NodeId) :
    (network.withdrawn name operator sources).node? id =
      (network.node? id).map (Node.prune network.nodes.contains) := by
  have left := funext (network.stays_withdrawn name operator sources)
  have absent : network.nodes.contains network.nodes.nextId = false :=
    Bool.eq_false_iff.mpr fun found => network.not_alive_nextId ((contains_nodes _ _).mp found)
  have seen := network.node?_addNode_of_consumer name operator sources
    (List.replicate operator.outputCount default)
    (fun node index input here => node.prune_reconsume (here ▸ absent) index) id
  rw [withdrawn, discard, restrict]
  change ((Store.restrict _ _).mapValues _).get? id = _
  rw [Store.get?_mapValues, Store.get?_restrict, left]
  have stays := network.stays_withdrawn name operator sources id
  by_cases alive : network.nodes.contains id
  · rw [if_pos (stays.trans alive)]
    refine seen.trans (if_neg ?_)
    exact network.ne_nextId_of_alive ((contains_nodes _ _).mp alive)
  · rw [if_neg fun stay => alive (stays.symm.trans stay)]
    have dead : network.node? id = none :=
      Option.not_isSome_iff_eq_none.mp alive
    rw [dead]

/-- A view that does not show back references shows every node as before. -/
theorem agree_withdrawn (same : ∀ (node : Node) stays, view (node.prune stays) = view node) :
    Agree view network (network.withdrawn name operator sources) := by
  intro id
  rw [node?_withdrawn, Option.map_map]
  exact congrArg (Option.map · _) (funext fun node => same node _)

theorem graphs_withdrawn : (network.withdrawn name operator sources).graphs = network.graphs :=
  network.graphs_addNode name operator sources _

theorem events_withdrawn : (network.withdrawn name operator sources).events = network.events :=
  network.events_addNode name operator sources _

theorem nextId_withdrawn :
    (network.withdrawn name operator sources).nodes.nextId = network.nodes.nextId + 1 := by
  have sizes : (network.withdrawn name operator sources).nodes.nextId =
      (network.register name operator sources).nodes.nextId :=
    (Store.nextId_mapValues ..).trans (Store.nextId_restrict ..)
  exact sizes.trans (network.nextId_addNode name operator sources _)

end Withdrawn

end Network
end TensorGraph
