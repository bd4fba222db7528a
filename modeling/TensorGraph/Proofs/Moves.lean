import Mathlib.Logic.Relation
import Mathlib.Tactic.SplitIfs
import TensorGraph.Graph.Description
import TensorGraph.Graph.Validation
import TensorGraph.Network.Control
import TensorGraph.Proofs.Creation

/-!
# Moves of a network

Every operation on a network, accepted or refused, carries out a sequence of
elementary moves, each under the condition that the operation has checked.  What
all moves preserve therefore holds after every operation; invariants are proved
once for each move and not for each operation.
-/

namespace TensorGraph

open Relation

namespace Network

/-- One elementary change of a network, as operations and sessions make them. -/
inductive Move : Network → Network → Prop where
  | rewired {network : Network} {input : InputPort} {former source : OutputPort}
      (valid : source.index < network.outputCount source.node)
      (reads : network.source? input = some former) :
      Move network (network.rewire input former source)
  | rewiredAll {network : Network} {id : NodeId} {node : Node} {sources : List OutputPort}
      (alive : network.node? id = some node)
      (valid : ∀ source ∈ sources, source.index < network.outputCount source.node) :
      Move network (network.rewireAll id node.sources sources)
  | controlAdded {network : Network} {dependent dependency : NodeId} {node : Node}
      (distinct : dependent ≠ dependency)
      (alive : network.node? dependent = some node)
      (present : ∃ other, network.node? dependency = some other)
      (new : dependency ∉ node.controlDependencies) :
      Move network (network.addControl dependent dependency)
  | controlRemoved {network : Network} {dependent dependency : NodeId} {node : Node}
      (alive : network.node? dependent = some node)
      (known : dependency ∈ node.controlDependencies) :
      Move network (network.removeControl dependent dependency)
  | controlCleared {network : Network} {dependent : NodeId} {node : Node}
      (alive : network.node? dependent = some node) :
      Move network (network.clearControl dependent node.controlDependencies)
  | touched {network : Network} {nodes : List NodeId} : Move network (network.touch nodes)
  | created {network : Network} {name : String} {operator : Operator}
      {sources : List OutputPort} {types : List TensorType}
      (sensible : (Edit.checkOperator operator).on network = (.ok (), network))
      (valid : ∀ source ∈ sources, source.index < network.outputCount source.node)
      (inferred : network.infer operator sources = .ok types) :
      Move network (network.addNode name operator sources types)
  /-- A new result enters the boundary of a graph together with the network. -/
  | outputAdded {network : Network} {name : String} {port : OutputPort}
      {types : List TensorType} {id : GraphId}
      (valid : port.index < network.outputCount port.node)
      (inferred : network.infer .result [port] = .ok types) :
      Move network
        (((network.addNode name .result [port] types).modifyGraph id
          (·.modifyBoundary .results (· ++ [network.nodes.nextId]))).touchBoundary id)
  | withdrawn {network : Network} {name : String} {operator : Operator}
      {sources : List OutputPort} : Move network (network.withdrawn name operator sources)
  | inferred {network : Network} {id : NodeId} {node : Node} {types : List TensorType}
      (alive : network.node? id = some node)
      (inferred : network.infer node.operator node.sources = .ok types) :
      Move network (network.modifyNode id (·.withTypes types))
  | declared {network : Network} {id : NodeId} {node : Node} {type : TensorType}
      {update : TensorType → TensorType}
      (alive : network.node? id = some node)
      (parameter : node.operator = .parameter type) :
      Move network (network.modifyNode id (·.declare type update))
  | renamed {network : Network} {id : NodeId} {name : String} :
      Move network (network.modifyNode id ({ · with name }))
  | named {network : Network} {port : OutputPort} {given : List String}
      {update : NameSet → NameSet}
      (valid : port.index < network.outputCount port.node)
      (free : network.checkNames (network.tensorOwner port) (.ofList given) = .ok ())
      (gives : update = (fun _ => .ofList given) ∨ update = (·.union (.ofList given))) :
      Move network (network.modifyTensor (network.tensorOwner port) fun tensor =>
        { tensor with names := update tensor.names })
  | rootsRecorded {network : Network} {id : GraphId} : Move network (network.recordRoots id)
  | scheduled {network : Network} {id : GraphId} {schedule : List NodeId}
      (ordered : network.order (network.graph id).currentRoots = .ok schedule)
      (recorded : (network.graph id).roots = (network.graph id).currentRoots) :
      Move network (network.storeSchedule id schedule)
  | boundaryAdded {network : Network} {part : Boundary} {id : GraphId} {nodes : List NodeId}
      (accepted : network.checkBoundary part.role ((network.graph id).boundary part) nodes =
        .ok ()) :
      Move network
        ((network.modifyGraph id (·.modifyBoundary part (· ++ nodes))).touchBoundary id)
  | boundaryRemoved {network : Network} {part : Boundary} {id : GraphId} {node : NodeId}
      (present : node ∈ (network.graph id).boundary part) :
      Move network
        ((network.modifyGraph id (·.modifyBoundary part (·.erase node))).touchBoundary id)
  /-- A new graph has its roots recorded as soon as it is there. -/
  | graphAdded {network : Network} {name : String} {parameters results sinks : List NodeId}
      (parametersAccepted : network.checkBoundary .parameter [] parameters = .ok ())
      (resultsAccepted : network.checkBoundary .result [] results = .ok ())
      (sinksAccepted : network.checkBoundary .sink [] sinks = .ok ()) :
      Move network ((network.addGraph { name, parameters, results, sinks }).recordRoots
        network.graphs.nextId)
  | graphRetired {network : Network} {id : GraphId} {graph : Graph}
      (found : network.graph? id = some graph) : Move network (network.retireGraph id)
  | graphDropped {network : Network} {id : GraphId} : Move network (network.dropGraph id)
  | graphRenamed {network : Network} {id : GraphId} {name : String} :
      Move network (network.modifyGraph id ({ · with name }))
  | logged {network : Network} {events : Array Event} : Move network { network with events }
  | released {network : Network} {held : List NodeId} : Move network (network.release held)

/-- Some moves lead from one network to another. -/
abbrev Moves : Network → Network → Prop := ReflTransGen Move

/-- What every move preserves holds after any moves. -/
theorem Moves.preserve {holds : Network → Prop}
    (kept : ∀ before after, Move before after → holds before → holds after)
    {before after : Network} (moves : Moves before after) (initially : holds before) :
    holds after := by
  induction moves with
  | refl => exact initially
  | tail _ move ih => exact kept _ _ move ih

/-- What holds of one network holds of the other. -/
def Preserves (holds : Network → Prop) (before after : Network) : Prop :=
  holds before → holds after

instance (holds : Network → Prop) : IsPreorder Network (Preserves holds) where
  refl _ := id
  trans _ _ _ first second := second ∘ first

end Network

namespace Edit

open Network

variable {α β : Type}

/-- Whatever its outcome, the operation leads from every network to one that is related
to it. -/
def Within (related : Network → Network → Prop) (edit : Edit α) : Prop :=
  ∀ network, related network (edit.on network).2

/-- Whatever its outcome, the operation carries out moves. -/
def Follows (edit : Edit α) : Prop :=
  edit.Within Moves

/-- An answer of a composed operation comes from an answer of each part. -/
theorem of_on_bind {edit : Edit α} {next : α → Edit β} {network after : Network} {value : β}
    (outcome : (edit >>= next).on network = (.ok value, after)) :
    ∃ first between, edit.on network = (.ok first, between) ∧
      (next first).on between = (.ok value, after) := by
  rw [on_bind] at outcome
  rcases answered : edit.on network with ⟨result, between⟩
  rw [answered] at outcome
  cases result with
  | ok first => exact ⟨first, between, rfl, outcome⟩
  | error error => cases (Prod.mk.inj outcome).1

/-- An operation that answers, with its answer and the network afterwards. -/
theorem on_eq_of_ok {edit : Edit α} {network : Network} {value : α}
    (answers : (edit.on network).1 = .ok value) :
    edit.on network = (.ok value, (edit.on network).2) :=
  Prod.ext answers rfl

theorem on_eq_of_error {edit : Edit α} {network : Network} {error : GraphError}
    (refused : (edit.on network).1 = .error error) :
    edit.on network = (.error error, (edit.on network).2) :=
  Prod.ext refused rfl

section Composition

variable {related : Network → Network → Prop} [IsPreorder Network related]

theorem Within.of_unchanged {edit : Edit α}
    (unchanged : ∀ network, (edit.on network).2 = network) : edit.Within related := by
  intro network
  rw [unchanged]
  exact refl_of related network

theorem within_pure (value : α) : (pure value : Edit α).Within related :=
  .of_unchanged fun _ => rfl

theorem within_throw (error : GraphError) : (throw error : Edit α).Within related :=
  .of_unchanged fun _ => rfl

theorem within_get : (get : Edit Network).Within related :=
  .of_unchanged fun _ => rfl

theorem within_ask (question : Network → Except GraphError α) : (ask question).Within related :=
  .of_unchanged fun network => by rw [on_ask]

omit [IsPreorder Network related] in
theorem within_change {update : Network → Network}
    (each : ∀ network, related network (update network)) : (change update).Within related := by
  intro network
  rw [on_change]
  exact each network

/-- The second operation only has to stay within the relation where the first one leads. -/
theorem related_bind {edit : Edit α} {next : α → Edit β} {network : Network}
    (first : related network (edit.on network).2)
    (second : ∀ value after, edit.on network = (.ok value, after) →
      related after ((next value).on after).2) :
    related network ((edit >>= next).on network).2 := by
  rw [on_bind]
  rcases outcome : edit.on network with ⟨result, after⟩
  rw [outcome] at first
  cases result with
  | ok value => exact trans_of related first (second value after outcome)
  | error error => exact first

theorem Within.bind_of {edit : Edit α} {next : α → Edit β} (first : edit.Within related)
    (second : ∀ network value after, edit.on network = (.ok value, after) →
      related after ((next value).on after).2) :
    (edit >>= next).Within related :=
  fun network => related_bind (first network) (second network)

theorem Within.bind {edit : Edit α} {next : α → Edit β} (first : edit.Within related)
    (second : ∀ value, (next value).Within related) : (edit >>= next).Within related :=
  first.bind_of fun _ value after _ => second value after

/-- The part of an operation that follows a look at the network. -/
theorem within_get_bind {next : Network → Edit β}
    (second : ∀ network, related network ((next network).on network).2) :
    (get >>= next : Edit β).Within related := by
  refine Within.bind_of within_get ?_
  intro network value after outcome
  rw [on_get] at outcome
  cases outcome
  exact second network

theorem within_refusal (error : GraphError) (next : α → Edit β) :
    (throw error >>= next).Within related :=
  (within_throw error).bind_of fun _ _ _ outcome => by cases outcome

omit [IsPreorder Network related] in
theorem within_ite {condition : Prop} [Decidable condition] {accepted refused : Edit α}
    (positive : condition → accepted.Within related)
    (negative : ¬ condition → refused.Within related) :
    (if condition then accepted else refused).Within related := by
  split
  · exact positive ‹_›
  · exact negative ‹_›

theorem Within.orElse {edit : Edit α} {onRefusal : GraphError → Edit α}
    (first : edit.Within related) (second : ∀ error, (onRefusal error).Within related) :
    (edit.orElse onRefusal).Within related := by
  intro network
  have reached := first network
  rw [on_orElse]
  rcases outcome : edit.on network with ⟨result, after⟩
  rw [outcome] at reached
  cases result with
  | ok value => exact reached
  | error error => exact trans_of related reached (second error after)

theorem within_forM {items : List β} {body : β → Edit Unit}
    (each : ∀ item ∈ items, (body item).Within related) : (items.forM body).Within related := by
  induction items with
  | nil => exact within_pure ()
  | cons item items ih =>
      change (body item >>= fun _ => items.forM body).Within related
      exact (each item (List.mem_cons_self ..)).bind fun _ =>
        ih fun other member => each other (List.mem_cons_of_mem _ member)

theorem within_mapM {items : List β} {body : β → Edit α}
    (each : ∀ item ∈ items, (body item).Within related) : (items.mapM body).Within related := by
  induction items with
  | nil => exact within_pure []
  | cons item items ih =>
      rw [List.mapM_cons]
      apply (each item (List.mem_cons_self ..)).bind
      intro first
      exact (ih fun other member => each other (List.mem_cons_of_mem _ member)).bind
        fun rest => within_pure _

theorem within_foldlM {items : List β} {body : α → β → Edit α} (initial : α)
    (each : ∀ value, ∀ item ∈ items, (body value item).Within related) :
    (items.foldlM body initial).Within related := by
  induction items generalizing initial with
  | nil => exact within_pure initial
  | cons item items ih =>
      rw [List.foldlM_cons]
      exact (each initial item (List.mem_cons_self ..)).bind fun next =>
        ih next fun value other member => each value other (List.mem_cons_of_mem _ member)

theorem within_outputType (port : OutputPort) : (outputType port).Within related :=
  (within_ask _).bind fun _ => within_get.bind fun _ => within_pure _

end Composition

section Changes

theorem follows_change {update : Network → Network}
    (move : ∀ network, Move network (update network)) : (change update).Follows :=
  fun network => .single (move network)

theorem moves_change {update : Network → Network} {network : Network}
    (move : Move network (update network)) : Moves network ((change update).on network).2 := by
  rw [on_change]
  exact .single move

theorem follows_report (event : Event) : (report event).Follows :=
  follows_change fun _ => .logged

/-- An operation preserves what every move preserves. -/
theorem Follows.preserves {edit : Edit α} {holds : Network → Prop} (follows : edit.Follows)
    (kept : ∀ before after, Move before after → holds before → holds after) :
    edit.Within (Preserves holds) :=
  fun network => (follows network).preserve kept

end Changes

section Operations

theorem on_node (id : NodeId) (network : Network) :
    (node id).on network =
      (match network.node? id with
        | some node => .ok node
        | none => .error (.nodeNotFound id), network) :=
  on_ask _ network

theorem on_inferNode {id : NodeId} {found : Node} {network : Network}
    (alive : network.node? id = some found) :
    (inferNode id).on network =
      match network.infer found.operator found.sources with
      | .ok types => (.ok (), network.modifyNode id (·.withTypes types))
      | .error cause => (.error (.inference ⟨cause, some (found.label id)⟩), network) := by
  have answered : (node id).on network = (.ok found, network) := by
    rw [on_node, alive]
  rw [inferNode, on_bind, answered]
  dsimp only
  rw [on_bind, on_get]
  dsimp only
  cases network.infer found.operator found.sources <;> rfl

theorem follows_node (id : NodeId) : (node id).Follows :=
  within_ask _

theorem follows_checkPort (port : OutputPort) : (checkPort port).Follows :=
  within_ask _

/-- The answer of a look-up names a live node, and nothing has changed. -/
theorem of_on_node {id : NodeId} {network after : Network} {found : Node}
    (outcome : (node id).on network = (.ok found, after)) :
    after = network ∧ network.node? id = some found := by
  rw [on_node] at outcome
  cases alive : network.node? id with
  | none => simp [alive] at outcome
  | some other => simp_all

theorem of_on_checkPort {port : OutputPort} {network after : Network}
    (outcome : (checkPort port).on network = (.ok (), after)) :
    after = network ∧ port.index < network.outputCount port.node := by
  rw [checkPort, on_ask] at outcome
  split at outcome
  · exact ⟨(Prod.mk.inj outcome).2.symm, ‹_›⟩
  · cases outcome

theorem of_on_source {input : InputPort} {network after : Network} {found : OutputPort}
    (outcome : (source input).on network = (.ok found, after)) :
    after = network ∧ network.source? input = some found := by
  rw [source, on_ask] at outcome
  cases reads : network.source? input with
  | none => simp [reads] at outcome
  | some other => simp_all

theorem on_forM_checkPort (ports : List OutputPort) (network : Network) :
    ((ports.forM checkPort).on network).2 = network := by
  induction ports with
  | nil => rfl
  | cons port ports ih =>
      change ((checkPort port >>= fun _ => ports.forM checkPort).on network).2 = network
      rw [on_bind, checkPort, on_ask]
      split <;> rename_i split
      · obtain rfl := (Prod.mk.inj split).2
        exact ih
      · exact (Prod.mk.inj split).2.symm

theorem of_on_forM_checkPort {ports : List OutputPort} {network after : Network}
    (outcome : (ports.forM checkPort).on network = (.ok (), after)) :
    after = network ∧ ∀ port ∈ ports, port.index < network.outputCount port.node := by
  induction ports with
  | nil => exact ⟨(Prod.mk.inj outcome).2.symm, by simp⟩
  | cons port ports ih =>
      change (checkPort port >>= fun _ => ports.forM checkPort).on network = _ at outcome
      rw [on_bind] at outcome
      rcases first : (checkPort port).on network with ⟨result, between⟩
      rw [first] at outcome
      cases result with
      | error error => cases outcome
      | ok value =>
          obtain ⟨rfl, valid⟩ := of_on_checkPort first
          obtain ⟨rfl, others⟩ := ih outcome
          exact ⟨rfl, List.forall_mem_cons.mpr ⟨valid, others⟩⟩

theorem follows_source (input : InputPort) : (source input).Follows :=
  within_ask _

theorem follows_setSource (input : InputPort) (port : OutputPort) :
    (setSource input port).Follows := by
  apply (follows_checkPort port).bind_of
  intro network _ after checked
  obtain ⟨rfl, valid⟩ := of_on_checkPort checked
  apply related_bind (follows_source input after)
  intro former between found
  obtain ⟨rfl, reads⟩ := of_on_source found
  exact moves_change (.rewired valid reads)

theorem follows_forM_checkPort (ports : List OutputPort) : (ports.forM checkPort).Follows :=
  within_forM fun port _ => follows_checkPort port

theorem follows_setSources (id : NodeId) (ports : List OutputPort) :
    (setSources id ports).Follows := by
  apply (follows_forM_checkPort ports).bind_of
  intro network _ after checked
  obtain ⟨rfl, valid⟩ := of_on_forM_checkPort checked
  apply related_bind (follows_node id after)
  intro found between outcome
  obtain ⟨rfl, alive⟩ := of_on_node outcome
  exact moves_change (.rewiredAll alive valid)

theorem follows_replaceOutput (former replacement : OutputPort) :
    (replaceOutput former replacement).Follows := by
  refine (follows_checkPort replacement).bind fun _ => ?_
  split
  · apply within_get_bind
    intro network
    refine related_bind (within_forM (fun input _ => follows_setSource input replacement) network)
      fun _ after _ => moves_change .touched
  · exact within_pure ()

theorem follows_addControlDependency (dependent dependency : NodeId) :
    (addControlDependency dependent dependency).Follows := by
  rw [addControlDependency]
  split
  · exact within_get.bind fun _ => within_throw _
  next distinct =>
    apply (follows_node dependent).bind_of
    intro network found after outcome
    obtain ⟨rfl, alive⟩ := of_on_node outcome
    apply related_bind (follows_node dependency after)
    intro other between outcome
    obtain ⟨rfl, present⟩ := of_on_node outcome
    split
    · exact moves_change (.controlAdded distinct alive ⟨other, present⟩ ‹_›)
    · exact .refl

theorem follows_removeControlDependency (dependent dependency : NodeId) :
    (removeControlDependency dependent dependency).Follows := by
  apply (follows_node dependent).bind_of
  intro network found after outcome
  obtain ⟨rfl, alive⟩ := of_on_node outcome
  split
  · exact related_bind (moves_change (.controlRemoved alive ‹_›)) fun _ _ _ => .refl
  · exact .refl

theorem follows_clearControlDependencies (dependent : NodeId) :
    (clearControlDependencies dependent).Follows := by
  apply (follows_node dependent).bind_of
  intro network found after outcome
  obtain ⟨rfl, alive⟩ := of_on_node outcome
  split
  · exact moves_change (.controlCleared alive)
  · exact .refl

theorem follows_redirectDependent (target replacement dependent : NodeId) :
    (redirectDependent target replacement dependent).Follows :=
  within_ite
    (fun _ => (follows_removeControlDependency dependent target).bind fun _ =>
      follows_addControlDependency dependent replacement)
    fun _ => within_pure ()

theorem follows_inheritDependency (replacement dependency : NodeId) :
    (inheritDependency replacement dependency).Follows :=
  within_ite (fun _ => follows_addControlDependency replacement dependency)
    fun _ => within_pure ()

theorem follows_replaceNode (target replacement : NodeId) :
    (replaceNode target replacement).Follows := by
  rw [replaceNode]
  refine Within.bind (follows_node target) fun _ => ?_
  refine Within.bind (follows_node replacement) fun _ => ?_
  refine within_get.bind fun network => ?_
  refine within_ite (fun _ => ?_) fun _ => within_pure ()
  refine within_ite (fun _ => within_refusal _ _) fun _ => ?_
  refine within_ite (fun _ => within_refusal _ _) fun _ => ?_
  refine (within_forM fun index _ => follows_replaceOutput _ _).bind fun _ => ?_
  refine within_get.bind fun _ => ?_
  refine (within_forM fun other _ => follows_redirectDependent _ _ other).bind fun _ => ?_
  refine within_get.bind fun _ => ?_
  refine (within_forM fun other _ => follows_inheritDependency _ other).bind fun _ => ?_
  exact follows_change fun _ => .touched

theorem on_checkOperator (operator : Operator) (network : Network) :
    (checkOperator operator).on network =
      (((checkOperator operator).on network).1, network) := by
  cases operator with
  | constant elementType sizes values =>
      rw [checkOperator]
      split_ifs <;> rfl
  | _ => rfl

theorem on_forM_checkPort_of_valid {ports : List OutputPort} {network : Network}
    (valid : ∀ port ∈ ports, port.index < network.outputCount port.node) :
    (ports.forM checkPort).on network = (.ok (), network) := by
  induction ports with
  | nil => rfl
  | cons port ports ih =>
      obtain ⟨first, rest⟩ := List.forall_mem_cons.mp valid
      change (checkPort port >>= fun _ => ports.forM checkPort).on network = _
      rw [on_bind, checkPort, on_ask, if_pos first]
      exact ih rest

/-- A node whose arguments are accepted is registered; if its output types cannot be
inferred, it is withdrawn. -/
theorem on_create_of_accepted {operator : Operator} {sources : List OutputPort}
    {network : Network} (name : Option String)
    (sensible : (checkOperator operator).on network = (.ok (), network))
    (valid : ∀ source ∈ sources, source.index < network.outputCount source.node) :
    let given := name.getD (defaultName operator network.nodes.nextId)
    (create operator sources name).on network =
      match network.infer operator sources with
      | .ok types =>
          (.ok network.nodes.nextId, network.addNode given operator sources types)
      | .error cause =>
          (.error (.inference ⟨cause, some ⟨network.nodes.nextId, given, operator.typeName⟩⟩),
            network.withdrawn given operator sources) := by
  intro given
  have inferred : (inferNode network.nodes.nextId).on (network.register given operator sources) =
      match network.infer operator sources with
      | .ok types => (.ok (), (network.register given operator sources).modifyNode
          network.nodes.nextId (·.withTypes types))
      | .error cause =>
          (.error (.inference ⟨cause, some ⟨network.nodes.nextId, given, operator.typeName⟩⟩),
            network.register given operator sources) := by
    rw [← infer_addNode valid given operator (List.replicate operator.outputCount default)]
    exact on_inferNode (node?_addNode_nextId valid given operator _)
  rw [create, on_bind, sensible]
  dsimp only
  rw [on_bind, on_forM_checkPort_of_valid valid]
  dsimp only
  rw [on_bind, on_get]
  dsimp only
  rw [on_bind, on_change]
  dsimp only
  rw [on_bind, on_undoing, inferred]
  cases found : network.infer operator sources with
  | error cause => rfl
  | ok types =>
      have lengths :
          types.length = (List.replicate operator.outputCount (default : TensorType)).length := by
        rw [Operator.length_of_infer found, List.length_replicate]
      dsimp only
      rw [register, addNode_withTypes valid lengths]
      rfl

/-- A creation is refused without effect, or withdraws a node that it has registered, or adds
the node under the next number. -/
theorem on_create_cases (operator : Operator) (sources : List OutputPort)
    (name : Option String) (network : Network) :
    (∃ error, (create operator sources name).on network = (.error error, network)) ∨
    (∃ error, (create operator sources name).on network =
      (.error error, network.withdrawn
        (name.getD (defaultName operator network.nodes.nextId)) operator sources)) ∨
    ∃ types, (checkOperator operator).on network = (.ok (), network) ∧
      (∀ source ∈ sources, source.index < network.outputCount source.node) ∧
      network.infer operator sources = .ok types ∧
      (create operator sources name).on network =
        (.ok network.nodes.nextId,
          network.addNode (name.getD (defaultName operator network.nodes.nextId)) operator sources
            types) := by
  have sensible := on_checkOperator operator network
  rcases outcome : ((checkOperator operator).on network).1 with error | _ <;>
    rw [outcome] at sensible
  · refine Or.inl ⟨error, ?_⟩
    rw [create, on_bind, sensible]
  have unchanged : ((sources.forM checkPort).on network).2 = network :=
    on_forM_checkPort sources network
  rcases checked : (sources.forM checkPort).on network with ⟨error | _, after⟩ <;>
    rw [checked] at unchanged <;> obtain rfl : after = network := unchanged
  · refine Or.inl ⟨error, ?_⟩
    rw [create, on_bind, sensible]
    dsimp only
    rw [on_bind, checked]
  obtain ⟨-, valid⟩ := of_on_forM_checkPort checked
  have answer := on_create_of_accepted name sensible valid
  cases inferred : after.infer operator sources with
  | error cause =>
      rw [inferred] at answer
      exact Or.inr (Or.inl ⟨_, answer⟩)
  | ok types =>
      rw [inferred] at answer
      exact Or.inr (Or.inr ⟨types, sensible, valid, rfl, answer⟩)

/-- A creation whose arguments are accepted adds the node. -/
theorem on_create_of_inferred {operator : Operator} {sources : List OutputPort}
    {network : Network} {types : List TensorType} (name : Option String)
    (sensible : (checkOperator operator).on network = (.ok (), network))
    (valid : ∀ source ∈ sources, source.index < network.outputCount source.node)
    (inferred : network.infer operator sources = .ok types) :
    (create operator sources name).on network =
      (.ok network.nodes.nextId,
        network.addNode (name.getD (defaultName operator network.nodes.nextId)) operator sources
          types) := by
  have answer := on_create_of_accepted name sensible valid
  rwa [inferred] at answer

theorem follows_create (operator : Operator) (sources : List OutputPort)
    (name : Option String) : (create operator sources name).Follows := by
  intro network
  rcases on_create_cases operator sources name network with
    ⟨error, outcome⟩ | ⟨error, outcome⟩ | ⟨types, sensible, valid, inferred, outcome⟩ <;>
    rw [outcome]
  · exact .single .withdrawn
  · exact .single (.created sensible valid inferred)

theorem follows_inferNode (id : NodeId) : (inferNode id).Follows := by
  apply (follows_node id).bind_of
  intro network found after outcome
  obtain ⟨rfl, alive⟩ := of_on_node outcome
  apply related_bind .refl
  intro network later outcome
  rw [on_get] at outcome
  cases outcome
  split
  · exact .refl
  next types inferred => exact moves_change (.inferred alive inferred)

theorem follows_redeclare (id : NodeId) (update : TensorType → TensorType)
    (refusal : NodeLabel → Misuse) : (redeclare id update refusal).Follows := by
  apply (follows_node id).bind_of
  intro network found after outcome
  obtain ⟨rfl, alive⟩ := of_on_node outcome
  split
  next type parameter => exact moves_change (.declared alive parameter)
  · exact .refl

theorem follows_declareShape (id : NodeId) (shape : PartialShape) :
    (declareShape id shape).Follows :=
  follows_redeclare _ _ _

theorem follows_declareElementType (id : NodeId) (elementType : ElementType) :
    (declareElementType id elementType).Follows :=
  follows_redeclare _ _ _

theorem follows_rename (id : NodeId) (name : String) : (rename id name).Follows :=
  (follows_node id).bind fun _ => follows_change fun _ => .renamed

theorem follows_updateNames (port : OutputPort) (given : List String)
    {update : NameSet → NameSet}
    (gives : update = (fun _ => .ofList given) ∨ update = (·.union (.ofList given))) :
    (updateNames port (.ofList given) update).Follows := by
  apply (follows_checkPort port).bind_of
  intro network _ after checked
  obtain ⟨rfl, valid⟩ := of_on_checkPort checked
  apply related_bind .refl
  intro network later outcome
  rw [on_get] at outcome
  cases outcome
  apply related_bind (within_ask _ _)
  intro _ between accepted
  rw [on_ask] at accepted
  obtain ⟨free, rfl⟩ := Prod.mk.inj accepted
  exact moves_change (.named valid free gives)

theorem follows_setNames (port : OutputPort) (names : List String) :
    (setNames port names).Follows :=
  follows_updateNames port names (Or.inl rfl)

theorem follows_addNames (port : OutputPort) (names : List String) :
    (addNames port names).Follows :=
  follows_updateNames port names (Or.inr rfl)

end Operations

section Graphs

theorem currentRoots_recordRoots (network : Network) (id : GraphId) :
    ((network.recordRoots id).graph id).currentRoots = (network.graph id).currentRoots := by
  rw [recordRoots, Network.graph, Network.graph, graph?_modifyGraph, if_pos rfl]
  cases network.graph? id <;> rfl

theorem roots_recordRoots (network : Network) (id : GraphId) :
    ((network.recordRoots id).graph id).roots =
      ((network.recordRoots id).graph id).currentRoots := by
  rw [recordRoots, Network.graph, graph?_modifyGraph, if_pos rfl]
  cases network.graph? id <;> rfl

/-- A stale schedule is computed anew from the current roots; a fresh one is
answered as it is. -/
theorem on_schedule (id : GraphId) (network : Network) :
    (schedule id).on network =
      if (network.graph id).isFresh then (.ok (network.graph id).schedule, network)
      else
        match network.order (network.graph id).currentRoots with
        | .ok nodes => (.ok nodes, (network.recordRoots id).storeSchedule id nodes)
        | .error error => (.error error, network.recordRoots id) := by
  rw [schedule, on_bind, on_get]
  dsimp only
  split
  · rfl
  · rw [on_bind, on_change]
    dsimp only
    have same (roots : List NodeId) :
        (network.recordRoots id).order roots = network.order roots := rfl
    rw [on_bind, on_ask, same]
    cases network.order (network.graph id).currentRoots <;> rfl

/-- Asking for a schedule does no more than to record roots and to store the schedule. -/
theorem within_schedule {related : Network → Network → Prop} [IsPreorder Network related]
    {id : GraphId} (recorded : ∀ network, related network (network.recordRoots id))
    (stored : ∀ network nodes, related network (network.storeSchedule id nodes)) :
    (schedule id).Within related := by
  intro network
  rw [on_schedule]
  split
  · exact refl_of related network
  · split
    · exact trans_of related (recorded network) (stored _ _)
    · exact recorded network

/-- Asking a stale graph for its schedule records its roots first. -/
theorem moves_schedule_of_stale {id : GraphId} {network : Network}
    (isStale : ¬ (network.graph id).isFresh) :
    Moves (network.recordRoots id) ((schedule id).on network).2 := by
  rw [on_schedule, if_neg isStale]
  split
  next nodes ordered =>
    refine .single (.scheduled ?_ (roots_recordRoots network id))
    rw [currentRoots_recordRoots]
    exact ordered
  · exact .refl

theorem follows_schedule (id : GraphId) : (schedule id).Follows := by
  intro network
  by_cases isFresh : (network.graph id).isFresh
  · rw [on_schedule, if_pos isFresh]
  · exact .head .rootsRecorded (moves_schedule_of_stale isFresh)

theorem follows_addBoundary (part : Boundary) (id : GraphId) (nodes : List NodeId) :
    (addBoundary part id nodes).Follows := by
  refine (within_ask _).bind_of fun network _ after accepted => ?_
  rw [on_ask] at accepted
  obtain ⟨valid, rfl⟩ := Prod.mk.inj accepted
  exact moves_change (.boundaryAdded valid)

theorem follows_removeBoundary (part : Boundary) (id : GraphId) (node : NodeId) :
    (removeBoundary part id node).Follows := by
  apply within_get_bind
  intro network
  split
  · exact within_refusal _ _ network
  next present => exact moves_change (.boundaryRemoved (Decidable.not_not.mp present))

theorem follows_renameGraph (id : GraphId) (name : String) : (renameGraph id name).Follows :=
  follows_change fun _ => .graphRenamed

end Graphs

end Edit
end TensorGraph
