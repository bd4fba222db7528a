import TensorGraph.Graph.Validation
import TensorGraph.Network.Typing
import TensorGraph.Proofs.Coherence
import TensorGraph.Proofs.Outputs

/-!
# Inference along a schedule

Going through nodes in turn, each after its dependencies, and inferring the types of
each from those stored for its sources.  The pass comes to its end exactly if every
node has types by recursion, and stores those types, whatever was stored before.
-/

namespace TensorGraph

/-- A node without the types of its outputs and without its memberships. -/
def Node.skeleton (node : Node) : Node :=
  { node with
    outputs := node.outputs.map fun tensor => { tensor with type := default }
    memberships := [] }

theorem Node.skeleton_withTypes {node : Node} {types : List TensorType}
    (lengths : types.length = node.outputs.length) :
    (node.withTypes types).skeleton = node.skeleton := by
  rw [skeleton, map_withTypes lengths fun _ _ => rfl]
  rfl

/-- The name and the boundary of a graph. -/
def Graph.frame (graph : Graph) : String × List NodeId × List NodeId × List NodeId :=
  (graph.name, graph.parameters, graph.results, graph.sinks)

theorem Graph.boundary_eq_of_frame {graph other : Graph} (same : graph.frame = other.frame) :
    graph.boundary = other.boundary := by
  simp only [frame, Prod.mk.injEq] at same
  funext part
  cases part with
  | parameters => exact same.2.1
  | results => exact same.2.2.1
  | sinks => exact same.2.2.2

namespace Network

/-- Nothing has changed but types of outputs, schedules and memberships. -/
structure Keeps (before after : Network) : Prop where
  nodes : Agree Node.skeleton before after
  graphs : ∀ id, (after.graph? id).map Graph.frame = (before.graph? id).map Graph.frame

/-- The types of the outputs of a node as last inferred. -/
def storedTypes (network : Network) (id : NodeId) : List TensorType :=
  (network.node? id).elim [] (·.outputs.map (·.type))

/-- What a node computes and what it reads. -/
def wiring (node : Node) : Operator × List OutputPort :=
  (node.operator, node.sources)

namespace Keeps

variable {before between after : Network}

theorem refl (network : Network) : Keeps network network :=
  ⟨.refl _ _, fun _ => rfl⟩

theorem trans (first : Keeps before between) (second : Keeps between after) :
    Keeps before after :=
  ⟨first.nodes.trans second.nodes, fun id => (second.graphs id).trans (first.graphs id)⟩

theorem symm (keeps : Keeps before after) : Keeps after before :=
  ⟨keeps.nodes.symm, fun id => (keeps.graphs id).symm⟩

theorem wiring (keeps : Keeps before after) : Agree Network.wiring before after :=
  keeps.nodes.map fun node => (node.operator, node.sources)

theorem dependencies (keeps : Keeps before after) (id : NodeId) :
    after.dependencies id = before.dependencies id :=
  (keeps.nodes.map Node.dependencies).dependencies_eq id

theorem alive_iff (keeps : Keeps before after) (id : NodeId) :
    after.Alive id ↔ before.Alive id :=
  keeps.nodes.alive_iff id

theorem role? (keeps : Keeps before after) (id : NodeId) : after.role? id = before.role? id :=
  keeps.nodes.map (·.operator.role) id

theorem of_schedule (network : Network) (id : GraphId) :
    Keeps network ((Edit.schedule id).on network).2 := by
  have recorded : Keeps network (network.recordRoots id) := by
    refine ⟨.refl _ _, fun other => ?_⟩
    rw [graph?_recordRoots]
    split
    · rw [Option.map_map]
      rfl
    · rfl
  rw [Edit.on_schedule]
  split
  · exact refl network
  · split
    next nodes ordered =>
      refine recorded.trans ⟨agree_storeSchedule _ _ _ fun _ _ => rfl, fun other => ?_⟩
      rw [graph?_storeSchedule]
      split
      · rw [Option.map_map]
        rfl
      · rfl
    · exact recorded

end Keeps

section Types

variable {network before after : Network}

theorem operand_eq_operandOf (network : Network) (port : OutputPort) :
    network.operand port = network.operandOf (network.storedTypes port.node) port := by
  rw [operand, operandOf, tensorType, tensor?, storedTypes]
  cases network.node? port.node with
  | none => rfl
  | some node =>
      simp only [Option.bind_some, Option.elim_some, List.getD_eq_getElem?_getD,
        List.getElem?_map]
      cases node.outputs[port.index]? <;> rfl

theorem operandOf_congr {port : OutputPort}
    (same : (after.node? port.node).map wiring = (before.node? port.node).map wiring)
    (types : List TensorType) : after.operandOf types port = before.operandOf types port := by
  rw [operandOf, operandOf]
  rcases map_eq_map_cases same with ⟨later, former⟩ | ⟨node, other, later, former, wires⟩
  · rw [later, former]
  · rw [later, former, Option.bind_some, Option.bind_some,
      show node.operator = other.operator from (Prod.mk.inj wires).1]

theorem operandOf_eq (agree : Agree wiring before after) (types : List TensorType)
    (port : OutputPort) : after.operandOf types port = before.operandOf types port :=
  operandOf_congr (agree port.node) types

/-- The types by recursion depend on nothing but what the nodes of a part that contains
their dependencies compute and read. -/
theorem HasTypes.of_local {within : NodeId → Prop}
    (same : ∀ id, within id → (after.node? id).map wiring = (before.node? id).map wiring)
    (closed : ∀ id, within id → ∀ dependency ∈ before.dependencies id, within dependency)
    {id : NodeId} {types : List TensorType} (typed : before.HasTypes id types)
    (inside : within id) : after.HasTypes id types := by
  induction typed with
  | @intro id node types typesOf alive sources inferred ih =>
      have wires := same id inside
      rw [alive, Option.map_some] at wires
      obtain ⟨later, found, wires⟩ := Option.map_eq_some_iff.mp wires
      obtain ⟨sameOperator, sameSources⟩ := Prod.mk.inj wires
      have sourceInside (source : OutputPort) (member : source ∈ node.sources) :
          within source.node :=
        closed id inside source.node (mem_dependencies_of_source alive member)
      refine .intro typesOf found (fun source member => ?_) ?_
      · rw [sameSources] at member
        exact ih source member (sourceInside source member)
      · rw [sameOperator, sameSources, ← inferred]
        congr 1
        apply List.map_congr_left
        exact fun source member => operandOf_congr (same _ (sourceInside source member)) _

/-- The types by recursion depend on nothing but what nodes compute and read. -/
theorem HasTypes.of_agree (agree : Agree wiring before after) {id : NodeId}
    {types : List TensorType} (typed : before.HasTypes id types) : after.HasTypes id types :=
  typed.of_local (fun id _ => agree id) (fun _ _ _ _ => trivial) trivial

theorem HasTypes.alive {id : NodeId} {types : List TensorType} (typed : network.HasTypes id types) :
    network.Alive id := by
  cases typed with
  | intro _ alive _ _ => exact ⟨_, alive⟩

theorem HasTypes.unique {id : NodeId} {types others : List TensorType}
    (first : network.HasTypes id types) (second : network.HasTypes id others) :
    types = others := by
  induction first generalizing others with
  | @intro id node types typesOf alive sources inferred ih =>
      obtain ⟨othersOf, found, otherSources, otherInferred⟩ := second
      obtain rfl := Option.some.inj (alive.symm.trans found)
      have operands : node.sources.map (fun source =>
            network.operandOf (typesOf source.node) source) =
          node.sources.map fun source => network.operandOf (othersOf source.node) source := by
        apply List.map_congr_left
        intro source member
        rw [ih source member (otherSources source member)]
      rw [operands, otherInferred] at inferred
      exact (Except.ok.inj inferred).symm

end Types

section Sequence

variable {network before after : Network}

/-- The nodes can be gone through in turn after the earlier ones: each is alive and
has not come before, but everything that it depends on has. -/
def Sequenced (network : Network) (earlier : List NodeId) : List NodeId → Prop
  | [] => True
  | id :: rest =>
      id ∉ earlier ∧ network.Alive id ∧ (∀ dependency ∈ network.dependencies id,
        dependency ∈ earlier) ∧ network.Sequenced (earlier ++ [id]) rest

theorem Sequenced.not_mem {earlier rest : List NodeId} (sequenced : network.Sequenced earlier rest)
    {id : NodeId} (member : id ∈ earlier) : id ∉ rest := by
  induction rest generalizing earlier with
  | nil => simp
  | cons first rest ih =>
      obtain ⟨new, -, -, later⟩ := sequenced
      rw [List.mem_cons, not_or]
      exact ⟨fun same => new (same ▸ member), ih later (List.mem_append_left _ member)⟩

theorem Sequenced.of_agree (agree : Agree Node.dependencies before after)
    {earlier rest : List NodeId} (sequenced : before.Sequenced earlier rest) :
    after.Sequenced earlier rest := by
  induction rest generalizing earlier with
  | nil => trivial
  | cons id rest ih =>
      obtain ⟨new, alive, behind, later⟩ := sequenced
      refine ⟨new, (agree.alive_iff id).mpr alive, ?_, ih later⟩
      rw [agree.dependencies_eq]
      exact behind

theorem Sequenced.of_keeps (keeps : Keeps before after) {earlier rest : List NodeId}
    (sequenced : before.Sequenced earlier rest) : after.Sequenced earlier rest :=
  sequenced.of_agree (keeps.nodes.map Node.dependencies)

theorem Ordered.sequenced {roots nodes : List NodeId} (ordered : network.Ordered roots nodes)
    (alive : ∀ id ∈ nodes, network.Alive id) : network.Sequenced [] nodes := by
  have along (earlier rest : List NodeId) (split : nodes = earlier ++ rest) :
      network.Sequenced earlier rest := by
    induction rest generalizing earlier with
    | nil => trivial
    | cons id rest ih =>
        have nodup := ordered.nodup
        rw [split, List.nodup_append] at nodup
        refine ⟨fun member => ?_, alive id (by simp [split]), ?_, ih (earlier ++ [id]) ?_⟩
        · exact nodup.2.2 id member id (List.mem_cons_self ..) rfl
        · exact ordered.after earlier id rest split
        · simp [split]
  exact along [] nodes rfl

/-- An assignment of types under which the operator of each of the nodes infers the
types of the node from those of its sources. -/
def Solves (network : Network) (types : NodeId → List TensorType) (nodes : List NodeId) : Prop :=
  ∀ id ∈ nodes, ∀ node, network.node? id = some node →
    node.operator.infer (node.sources.map fun source =>
      network.operandOf (types source.node) source) = .ok (types id)

/-- What solves the equations of nodes in turn are their types by recursion. -/
theorem Solves.hasTypes {types : NodeId → List TensorType} {earlier rest : List NodeId}
    (solves : network.Solves types rest) (sequenced : network.Sequenced earlier rest)
    (typed : ∀ id ∈ earlier, network.HasTypes id (types id)) :
    ∀ id ∈ rest, network.HasTypes id (types id) := by
  induction rest generalizing earlier with
  | nil => simp
  | cons first rest ih =>
      obtain ⟨-, ⟨node, alive⟩, behind, later⟩ := sequenced
      have firstTyped : network.HasTypes first (types first) := by
        refine .intro types alive (fun source member => typed _ (behind _ ?_)) ?_
        · exact mem_dependencies_of_source alive member
        · exact solves first (List.mem_cons_self ..) node alive
      refine List.forall_mem_cons.mpr ⟨firstTyped, ih ?_ later fun id member => ?_⟩
      · exact fun id member => solves id (List.mem_cons_of_mem _ member)
      · rcases List.mem_append.mp member with old | new
        · exact typed id old
        · exact List.mem_singleton.mp new ▸ firstTyped

/-- Nodes that have types by recursion have a solution of their equations, if they
contain their sources. -/
theorem exists_solves {nodes : List NodeId}
    (closed : ∀ id ∈ nodes, ∀ dependency ∈ network.dependencies id, dependency ∈ nodes)
    (typed : ∀ id ∈ nodes, ∃ types, network.HasTypes id types) :
    ∃ types, network.Solves types nodes := by
  classical
  choose! types hasTypes using typed
  refine ⟨types, fun id member node alive => ?_⟩
  obtain ⟨typesOf, found, sources, inferred⟩ := hasTypes id member
  obtain rfl := Option.some.inj (alive.symm.trans found)
  have operands : node.sources.map (fun source =>
        network.operandOf (types source.node) source) =
      node.sources.map fun source => network.operandOf (typesOf source.node) source := by
    apply List.map_congr_left
    intro source reads
    have inside := closed id member _ (mem_dependencies_of_source alive reads)
    rw [(hasTypes source.node inside).unique (sources source reads)]
  rw [operands, inferred]

theorem Solves.of_agree (agree : Agree wiring before after) {types : NodeId → List TensorType}
    {nodes : List NodeId} (solves : before.Solves types nodes) : after.Solves types nodes := by
  intro id member node alive
  have same := agree id
  rw [alive, Option.map_some] at same
  obtain ⟨former, formerly, wires⟩ := Option.map_eq_some_iff.mp same.symm
  obtain ⟨sameOperator, sameSources⟩ := Prod.mk.inj wires
  have solved := solves id member former formerly
  rw [sameOperator, sameSources] at solved
  simpa only [operandOf_eq agree] using solved

end Sequence

section Pass

variable {network before between after : Network}

/-- Only types of outputs have changed, and only those of the given nodes. -/
structure Retyped (nodes : List NodeId) (before after : Network) : Prop where
  skeletons : Agree Node.skeleton before after
  graphs : ∀ id, after.graph? id = before.graph? id
  stored : ∀ id, id ∉ nodes → after.storedTypes id = before.storedTypes id

theorem Retyped.refl (nodes : List NodeId) (network : Network) : Retyped nodes network network :=
  ⟨.refl _ _, fun _ => rfl, fun _ _ => rfl⟩

theorem Retyped.keeps {nodes : List NodeId} (retyped : Retyped nodes before after) :
    Keeps before after :=
  ⟨retyped.skeletons, fun id => congrArg _ (retyped.graphs id)⟩

theorem Retyped.cons {id : NodeId} {nodes : List NodeId} (first : Retyped [id] before between)
    (second : Retyped nodes between after) : Retyped (id :: nodes) before after := by
  refine ⟨first.skeletons.trans second.skeletons,
    fun other => (second.graphs other).trans (first.graphs other), fun other outside => ?_⟩
  rw [List.mem_cons, not_or] at outside
  rw [second.stored other outside.2, first.stored other (by simpa using outside.1)]

variable {id : NodeId} {node : Node} {types : List TensorType}

theorem storedTypes_modifyNode_of_ne (network : Network) (change : Node → Node) {other : NodeId}
    (different : other ≠ id) :
    (network.modifyNode id change).storedTypes other = network.storedTypes other := by
  rw [storedTypes, node?_modifyNode, if_neg (Ne.symm different), storedTypes]

theorem storedTypes_withTypes (alive : network.node? id = some node)
    (lengths : types.length = node.outputs.length) :
    (network.modifyNode id (·.withTypes types)).storedTypes id = types := by
  rw [storedTypes, node?_modifyNode, if_pos rfl, alive]
  exact Node.map_type_withTypes lengths

theorem retyped_withTypes (alive : network.node? id = some node)
    (lengths : types.length = node.outputs.length) :
    Retyped [id] network (network.modifyNode id (·.withTypes types)) := by
  refine ⟨?_, fun _ => rfl, fun other outside => ?_⟩
  · exact agree_modifyNode_of_alive alive (Node.skeleton_withTypes lengths)
  · exact storedTypes_modifyNode_of_ne network _ (by simpa using outside)

theorem isParameter_iff {network : Network} {id : NodeId} :
    network.isParameter id ↔ ∃ node declared, network.node? id = some node ∧
      node.operator = .parameter declared := by
  rw [isParameter, role?]
  cases network.node? id with
  | none => simp
  | some node => cases operator : node.operator <;> simp [operator, Operator.role]

theorem on_redeclare {declared : TensorType} (alive : network.node? id = some node)
    (parameter : node.operator = .parameter declared) (update : TensorType → TensorType)
    (refusal : NodeLabel → Misuse) :
    (Edit.redeclare id update refusal).on network =
      (.ok (), network.modifyNode id (·.declare declared update)) := by
  have found : (Edit.node id).on network = (.ok node, network) := by
    rw [Edit.on_node, alive]
  rw [Edit.redeclare, Edit.on_bind, found]
  simp only [parameter]
  rfl

/-- The inference of a live node is refused without effect, or stores the types that
it finds. -/
theorem inferNode_cases (regular : network.Regular) (alive : network.node? id = some node) :
    (∃ cause, network.infer node.operator node.sources = .error cause ∧
      (Edit.inferNode id).on network =
        (.error (.inference ⟨cause, some (node.label id)⟩), network)) ∨
    ∃ types after, network.infer node.operator node.sources = .ok types ∧
      (Edit.inferNode id).on network = (.ok (), after) ∧
      Retyped [id] network after ∧ after.Regular ∧ after.storedTypes id = types := by
  rw [Edit.on_inferNode alive]
  cases inferred : network.infer node.operator node.sources with
  | error cause => exact Or.inl ⟨cause, rfl, rfl⟩
  | ok types =>
      have lengths := (regular id node alive).length_of_infer inferred
      exact Or.inr ⟨types, _, rfl, rfl, retyped_withTypes alive lengths,
        regular.of_move (.inferred alive inferred), storedTypes_withTypes alive lengths⟩

theorem on_forM_inferNode_cons (id : NodeId) (nodes : List NodeId) (network : Network) :
    ((id :: nodes).forM Edit.inferNode).on network =
      match (Edit.inferNode id).on network with
      | (.ok _, after) => (nodes.forM Edit.inferNode).on after
      | (.error error, after) => (.error error, after) := by
  change (Edit.inferNode id >>= fun _ => nodes.forM Edit.inferNode).on network = _
  rw [Edit.on_bind]
  rcases (Edit.inferNode id).on network with ⟨error | _, after⟩ <;> rfl

/-- Whatever the outcome, a pass changes only types of outputs of its nodes. -/
theorem retyped_forM_inferNode (regular : network.Regular) (nodes : List NodeId) :
    Retyped nodes network ((nodes.forM Edit.inferNode).on network).2 := by
  induction nodes generalizing network with
  | nil => exact .refl _ _
  | cons id nodes ih =>
      rw [on_forM_inferNode_cons]
      cases alive : network.node? id with
      | none =>
          have refused : (Edit.inferNode id).on network = (.error (.nodeNotFound id), network) := by
            rw [Edit.inferNode, Edit.on_bind, Edit.on_node, alive]
          rw [refused]
          exact .refl _ _
      | some node =>
          rcases inferNode_cases regular alive with
            ⟨cause, -, refused⟩ | ⟨types, after, -, accepted, first, stillRegular, -⟩
          · rw [refused]
            exact .refl _ _
          · rw [accepted]
            exact first.cons (ih stillRegular)

theorem regular_forM_inferNode (regular : network.Regular) (nodes : List NodeId) :
    ((nodes.forM Edit.inferNode).on network).2.Regular :=
  regular.of_moves (Edit.within_forM (fun node _ => Edit.follows_inferNode node) network)

theorem operands_eq_of_stored {types : NodeId → List TensorType}
    (stored : ∀ source ∈ node.sources, network.storedTypes source.node = types source.node) :
    node.sources.map network.operand =
      node.sources.map fun source => network.operandOf (types source.node) source := by
  apply List.map_congr_left
  intro source member
  rw [operand_eq_operandOf, stored source member]

/-- After a pass that comes to its end, what is stored solves the equations of its
nodes. -/
theorem solves_of_forM_inferNode (regular : network.Regular) {earlier nodes : List NodeId}
    (sequenced : network.Sequenced earlier nodes)
    (ended : (nodes.forM Edit.inferNode).on network = (.ok (), after)) :
    after.Solves after.storedTypes nodes := by
  induction nodes generalizing earlier network with
  | nil => simp [Solves]
  | cons id nodes ih =>
      obtain ⟨new, ⟨node, alive⟩, behind, later⟩ := sequenced
      rw [on_forM_inferNode_cons] at ended
      rcases inferNode_cases regular alive with
        ⟨cause, -, refused⟩ | ⟨types, between, inferred, accepted, first, stillRegular, stored⟩
      · rw [refused] at ended
        cases ended
      · rw [accepted] at ended
        have rest : Retyped nodes between after := by
          have retyped := retyped_forM_inferNode stillRegular nodes
          rwa [show (nodes.forM Edit.inferNode).on between = (.ok (), after) from ended] at retyped
        have sequenced := later.of_keeps first.keeps
        refine List.forall_mem_cons.mpr ⟨?_, ih stillRegular sequenced ended⟩
        have keeps := first.keeps.trans rest.keeps
        have unchanged (other : NodeId) (member : other ∈ earlier) :
            after.storedTypes other = network.storedTypes other := by
          rw [rest.stored other (sequenced.not_mem (List.mem_append_left _ member)),
            first.stored other fun same => new (List.mem_singleton.mp same ▸ member)]
        have solved : network.Solves after.storedTypes [id] := by
          intro other member found present
          obtain rfl := List.mem_singleton.mp member
          obtain rfl := Option.some.inj (alive.symm.trans present)
          rw [rest.stored other (sequenced.not_mem (by simp)), stored, ← inferred, infer,
            operands_eq_of_stored fun source reads => (unchanged _
              (behind _ (mem_dependencies_of_source alive reads))).symm]
        exact solved.of_agree keeps.wiring id (List.mem_cons_self ..)

/-- A pass over nodes whose equations have a solution comes to its end and stores
it. -/
theorem forM_inferNode_of_solves (regular : network.Regular) {earlier nodes : List NodeId}
    (sequenced : network.Sequenced earlier nodes) {types : NodeId → List TensorType}
    (solves : network.Solves types nodes)
    (known : ∀ id ∈ earlier, network.storedTypes id = types id) :
    ∃ after, (nodes.forM Edit.inferNode).on network = (.ok (), after) ∧
      ∀ id ∈ nodes, after.storedTypes id = types id := by
  induction nodes generalizing earlier network with
  | nil => exact ⟨network, rfl, by simp⟩
  | cons id nodes ih =>
      obtain ⟨new, ⟨node, alive⟩, behind, later⟩ := sequenced
      have inferred : network.infer node.operator node.sources = .ok (types id) := by
        rw [infer, operands_eq_of_stored fun source reads =>
          known _ (behind _ (mem_dependencies_of_source alive reads))]
        exact solves id (List.mem_cons_self ..) node alive
      rcases inferNode_cases regular alive with
        ⟨cause, failed, -⟩ | ⟨found, between, again, accepted, first, stillRegular, stored⟩
      · rw [inferred] at failed
        cases failed
      · obtain rfl : types id = found := Except.ok.inj (inferred.symm.trans again)
        have solvesRest : between.Solves types nodes :=
          Solves.of_agree first.keeps.wiring fun other member =>
            solves other (List.mem_cons_of_mem _ member)
        have sequenced := later.of_keeps first.keeps
        have knownNow (other : NodeId) (member : other ∈ earlier ++ [id]) :
            between.storedTypes other = types other := by
          rcases List.mem_append.mp member with old | same
          · rw [first.stored other fun same => new (List.mem_singleton.mp same ▸ old)]
            exact known other old
          · rw [List.mem_singleton.mp same, stored]
        obtain ⟨after, ended, typed⟩ := ih stillRegular sequenced solvesRest knownNow
        have rest := retyped_forM_inferNode stillRegular nodes
        rw [ended] at rest
        refine ⟨after, ?_, List.forall_mem_cons.mpr ⟨?_, typed⟩⟩
        · rw [on_forM_inferNode_cons, accepted]
          exact ended
        · rw [rest.stored id (sequenced.not_mem (by simp)), stored]

/-- Changes of a node that agree on it are the same change. -/
theorem modifyNode_congr (alive : network.node? id = some node) {change other : Node → Node}
    (same : change node = other node) :
    network.modifyNode id change = network.modifyNode id other := by
  have slots : network.nodes.slots.modify id (Option.map change) =
      network.nodes.slots.modify id (Option.map other) := by
    apply Array.ext_getElem?
    intro place
    rw [Array.getElem?_modify, Array.getElem?_modify]
    split
    next here =>
      subst here
      have found : (network.nodes.slots[id]?).join = some node := alive
      rw [Option.join_eq_some_iff.mp found]
      simp [same]
    · rfl
  rw [modifyNode, Store.modify, slots]
  rfl

theorem modifyNode_eq_self (alive : network.node? id = some node) {change : Node → Node}
    (same : change node = node) : network.modifyNode id change = network := by
  have slots : network.nodes.slots.modify id (Option.map fun node => node) =
      network.nodes.slots := by
    apply Array.ext_getElem?
    intro place
    simp [Array.getElem?_modify]
  have nothing : network.modifyNode id change = network.modifyNode id fun node => node :=
    modifyNode_congr alive same
  rw [nothing, modifyNode, Store.modify, slots]

theorem withTypes_self (node : Node) : node.withTypes (node.outputs.map (·.type)) = node := by
  have outputs : node.outputs.zipWith (fun tensor type => { tensor with type })
      (node.outputs.map (·.type)) = node.outputs := by
    apply List.ext_getElem
    · simp
    · simp
  rw [Node.withTypes, outputs]

/-- A node stores what its operator infers from what is stored for its sources. -/
def UpToDate (network : Network) (id : NodeId) : Prop :=
  ∀ node, network.node? id = some node →
    network.infer node.operator node.sources = .ok (node.outputs.map (·.type))

instance (network : Network) (id : NodeId) : Decidable (network.UpToDate id) :=
  match found : network.node? id with
  | none => .isTrue fun node alive => by
      rw [found] at alive
      cases alive
  | some node =>
      decidable_of_iff
        (network.infer node.operator node.sources = .ok (node.outputs.map (·.type)))
        ⟨fun inferred other alive => by
          obtain rfl := Option.some.inj (found.symm.trans alive)
          exact inferred,
        fun upToDate => upToDate node found⟩

theorem upToDate_of_solves {nodes : List NodeId}
    (solves : network.Solves network.storedTypes nodes) :
    ∀ id ∈ nodes, network.UpToDate id := by
  intro id member node alive
  have solved := solves id member node alive
  rw [storedTypes, alive] at solved
  rw [infer, operands_eq_of_stored fun _ _ => rfl]
  exact solved

theorem solves_of_upToDate {nodes : List NodeId} (upToDate : ∀ id ∈ nodes, network.UpToDate id) :
    network.Solves network.storedTypes nodes := by
  intro id member node alive
  have inferred := upToDate id member node alive
  rw [infer, operands_eq_of_stored fun _ _ => rfl] at inferred
  rw [storedTypes, alive]
  exact inferred

/-- A pass over nodes that are up to date changes nothing. -/
theorem forM_inferNode_of_upToDate {nodes : List NodeId} (alive : ∀ id ∈ nodes, network.Alive id)
    (upToDate : ∀ id ∈ nodes, network.UpToDate id) :
    (nodes.forM Edit.inferNode).on network = (.ok (), network) := by
  induction nodes with
  | nil => rfl
  | cons id nodes ih =>
      obtain ⟨⟨node, found⟩, restAlive⟩ := List.forall_mem_cons.mp alive
      obtain ⟨first, rest⟩ := List.forall_mem_cons.mp upToDate
      have unchanged : (Edit.inferNode id).on network = (.ok (), network) := by
        rw [Edit.on_inferNode found, first node found]
        dsimp only
        rw [modifyNode_eq_self found (withTypes_self node)]
      rw [on_forM_inferNode_cons, unchanged]
      exact ih restAlive rest

end Pass

end Network
end TensorGraph
