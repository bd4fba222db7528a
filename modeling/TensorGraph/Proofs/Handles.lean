import TensorGraph.Proofs.Coherence
import TensorGraph.Proofs.Outputs

/-!
# Handles hold live nodes

Nothing but a release takes nodes away, and a release keeps what handles hold.  A handle is
bound only to a node that is alive at the time, so handles hold live nodes in every session
that commands lead to.
-/

namespace TensorGraph

namespace Network

/-- No node is gone. -/
def Grows (before after : Network) : Prop :=
  ∀ id, before.Alive id → after.Alive id

instance : IsPreorder Network Grows where
  refl _ _ alive := alive
  trans _ _ _ first second id alive := second id (first id alive)

theorem Agree.grows {β : Type} {view : Node → β} {before after : Network}
    (agree : Agree view before after) : Grows before after :=
  fun id => (agree.alive_iff id).mpr

theorem grows_of_nodes {before after : Network} (nodes : ∀ id, after.node? id = before.node? id) :
    Grows before after :=
  (Agree.of_node?_eq nodes : Agree Node.name before after).grows

theorem grows_modifyNode (network : Network) (id : NodeId) (change : Node → Node) :
    Grows network (network.modifyNode id change) :=
  (network.agree_modifyNode id fun _ => rfl : Agree (fun _ => ()) network _).grows

theorem grows_storeSchedule (network : Network) (id : GraphId) (schedule : List NodeId) :
    Grows network (network.storeSchedule id schedule) :=
  (network.agree_storeSchedule id schedule fun _ _ => rfl : Agree Node.name network _).grows

theorem grows_dropGraph (network : Network) (id : GraphId) :
    Grows network (network.dropGraph id) :=
  (network.agree_dropGraph id fun _ _ => rfl : Agree Node.name network _).grows

theorem grows_addNode (network : Network) (name : String) (operator : Operator)
    (sources : List OutputPort) (types : List TensorType) :
    Grows network (network.addNode name operator sources types) :=
  fun _ alive => (network.alive_addNode_iff name operator sources types).mpr (Or.inr alive)

theorem grows_modifyBoundary (network : Network) (id : GraphId) (part : Boundary)
    (change : List NodeId → List NodeId) :
    Grows network ((network.modifyGraph id (·.modifyBoundary part change)).touchBoundary id) :=
  grows_of_nodes fun node => node?_touchBoundary _ id node

/-- A port at a place of a boundary is one of a node that is there. -/
theorem Coherent.alive_of_portAt {network : Network} (coherent : network.Coherent) {id : GraphId}
    {part : Boundary} {index : Nat} {port : OutputPort}
    (selected : portAt ((network.graph id).boundary part) index = .ok port) :
    network.Alive port.node := by
  rw [portAt] at selected
  split at selected
  next node listed =>
    obtain rfl := Except.ok.inj selected
    exact alive_of_role? (coherent.role?_of_mem_boundary (List.mem_of_getElem? listed))
  · cases selected

end Network

namespace Edit

open Network

section Grows

theorem grows_create (operator : Operator) (sources : List OutputPort) (name : Option String) :
    (create operator sources name).Within Grows := by
  intro network
  rcases on_create_cases operator sources name network with
    ⟨error, outcome⟩ | ⟨error, outcome⟩ | ⟨types, -, -, -, outcome⟩ <;> rw [outcome]
  · exact refl_of Grows network
  · exact (agree_withdrawn network _ _ _ fun _ _ => rfl : Agree Node.name network _).grows
  · exact network.grows_addNode _ _ _ _

theorem nodeKeeping_grows : NodeKeeping Grows where
  created := grows_create
  inferred _ := within_inferNode fun network _ => network.grows_modifyNode _ _
  redeclared _ _ refusal := within_redeclare (fun network _ => network.grows_modifyNode _ _) refusal
  renamed _ _ :=
    (within_ask _).bind fun _ => within_change fun network => network.grows_modifyNode _ _
  namesSet port _ := within_updateNames (fun network _ => network.grows_modifyNode _ _) port _
  namesAdded port _ := within_updateNames (fun network _ => network.grows_modifyNode _ _) port _
  reported _ := within_change fun _ => grows_of_nodes fun _ => rfl

theorem grows_schedule (id : GraphId) : (schedule id).Within Grows :=
  within_schedule (fun _ => grows_of_nodes fun _ => rfl) (grows_storeSchedule · id)

theorem graphKeeping_grows : GraphKeeping Grows where
  toNodeKeeping := nodeKeeping_grows
  scheduled := grows_schedule
  graphCreated := within_createGraph (fun _ _ => grows_of_nodes fun _ => rfl) grows_schedule
    grows_dropGraph nodeKeeping_grows.reported
  graphRenamed _ _ := within_change fun _ => grows_of_nodes fun _ => rfl
  graphRetired _ _ _ _ := grows_of_nodes fun _ => rfl
  graphDropped := grows_dropGraph

theorem edgeEditing_grows : EdgeEditing Grows where
  rewired network input former source :=
    (network.agree_rewire product_reconsume (fun _ _ => rfl) input former source).grows
  rewiredAll network id former sources :=
    (network.agree_rewireAll product_reconsume (fun _ _ => rfl) id former sources).grows
  controlAdded network dependent dependency :=
    (network.agree_addControl (fun _ _ _ => rfl) dependent dependency :
      Agree Node.name network _).grows
  controlRemoved network dependent dependency :=
    (network.agree_removeControl (fun _ _ _ => rfl) dependent dependency :
      Agree Node.name network _).grows
  controlCleared network dependent former :=
    (network.agree_clearControl (fun _ _ _ => rfl) dependent former :
      Agree Node.name network _).grows
  touched network nodes := (agree_touch Node.name network nodes).grows

end Grows

section Answers

variable {network after : Network}

/-- A node that was created is there. -/
theorem alive_of_on_create {operator : Operator} {sources : List OutputPort}
    {name : Option String} {id : NodeId}
    (outcome : (create operator sources name).on network = (.ok id, after)) : after.Alive id := by
  rcases on_create_cases operator sources name network with
    ⟨error, refused⟩ | ⟨error, refused⟩ | ⟨types, -, -, -, created⟩
  · cases refused.symm.trans outcome
  · cases refused.symm.trans outcome
  · obtain ⟨same, rfl⟩ := Prod.mk.inj (created.symm.trans outcome)
    obtain rfl := Except.ok.inj same
    exact (network.alive_addNode_iff _ operator sources types).mpr (Or.inl rfl)

/-- The result that is found is one of those searched and reads the port. -/
theorem reads_of_reader? {port : OutputPort} {results : List NodeId} {result : NodeId}
    (found : network.reader? port results = .ok (some result)) :
    result ∈ results ∧ network.source? ⟨result, 0⟩ = some port := by
  induction results with
  | nil => cases found
  | cons first results ih =>
      rw [reader?] at found
      split at found
      · cases found
      next source reads =>
        split at found
        next same =>
          obtain rfl := Option.some.inj (Except.ok.inj found)
          exact ⟨List.mem_cons_self .., by rw [reads, same]⟩
        · exact (ih found).imp_left (List.mem_cons_of_mem _)

/-- The node that gives out a tensor is there, whether it is new or not. -/
theorem alive_of_on_addOutput {id : GraphId} {target : OutputTarget} {port : OutputPort}
    (outcome : (addOutput id target).on network = (.ok port, after)) : after.Alive port.node := by
  obtain ⟨nodes, scheduled, source, -, -, gives⟩ := of_on_addOutput outcome
  cases gives with
  | itself isResult => exact alive_of_role? (of_decide_eq_true isResult)
  | read noResult reads =>
      obtain ⟨node, alive, -⟩ := alive_of_source? (reads_of_reader? reads).2
      exact ⟨node, alive⟩
  | added noResult unread valid => exact (scheduled.alive_withOutput_iff id source).mpr (Or.inl rfl)

end Answers

end Edit

/-- The commands that leave the handles of nodes and inputs alone. -/
def Command.KeepsHandles : Command → Prop
  | create .. | createChain .. | inspectInput .. | dropNode .. | dropInput .. | holdResult ..
  | addOutput .. => False
  | _ => True

namespace Action

open Network

variable {α β : Type}

/-- Only a release takes nodes away. -/
theorem grows_perform (command : Command) : (perform command).Within Grows :=
  have keeping := Edit.graphKeeping_grows
  leads_perform_of_editing keeping.toEdgeKeeping (infoKeeping_across keeping)
    Edit.edgeEditing_grows grows_modifyBoundary command

section KeepsHandles

/-- Whatever its outcome, handles hold the same nodes and inputs as before. -/
def KeepsHandles (action : Action α) : Prop :=
  ∀ session, (action.on session).2.held = session.held

theorem keepsHandles_pure (value : α) : (pure value : Action α).KeepsHandles :=
  fun _ => rfl

theorem keepsHandles_throw (fault : Fault) : (throw fault : Action α).KeepsHandles :=
  fun _ => rfl

theorem keepsHandles_get : (get : Action Session).KeepsHandles :=
  fun _ => rfl

theorem keepsHandles_edit (operation : Edit α) : (edit operation).KeepsHandles :=
  fun _ => rfl

theorem keepsHandles_ofExcept (outcome : Except Fault α) : (ofExcept outcome).KeepsHandles := by
  intro session
  rw [on_ofExcept]

theorem keepsHandles_change {update : Session → Session}
    (same : ∀ session, (update session).held = session.held) : (change update).KeepsHandles :=
  same

theorem KeepsHandles.bind {action : Action α} {next : α → Action β} (first : action.KeepsHandles)
    (second : ∀ value, (next value).KeepsHandles) : (action >>= next).KeepsHandles := by
  intro session
  have same := first session
  rw [on_bind]
  rcases outcome : action.on session with ⟨error | value, after⟩ <;> rw [outcome] at same
  · exact same
  · exact (second value after).trans same

theorem keepsHandles_graph (handle : String) : (graph handle).KeepsHandles :=
  keepsHandles_get.bind fun _ => keepsHandles_ofExcept _

theorem keepsHandles_edit_bind {operation : Edit α} {next : α → Action β}
    (second : ∀ value, (next value).KeepsHandles) : (edit operation >>= next).KeepsHandles :=
  (keepsHandles_edit operation).bind second

theorem keepsHandles_change_bind {update : Session → Session} {next : Unit → Action β}
    (same : ∀ session, (update session).held = session.held)
    (second : ∀ value, (next value).KeepsHandles) : (change update >>= next).KeepsHandles :=
  (keepsHandles_change same).bind second

theorem keepsHandles_onGraph (handle : String) (operation : GraphId → Edit Unit) :
    (onGraph handle operation).KeepsHandles :=
  (keepsHandles_graph handle).bind fun _ => keepsHandles_edit_bind fun _ => keepsHandles_pure _

theorem keepsHandles_dropGraph (id : GraphId) : (dropGraph id).KeepsHandles := by
  refine keepsHandles_change fun session => ?_
  rw [Session.dropGraph]
  split <;> rfl

theorem keepsHandles_forgetInfo (id : GraphId) : (change (·.forgetInfo id)).KeepsHandles := by
  refine keepsHandles_change fun session => ?_
  rw [Session.forgetInfo]
  split <;> rfl

theorem keepsHandles_bindInfo (handle : GivenText) (id : GraphId) :
    (bindInfo handle id).KeepsHandles := by
  cases handle with
  | absent => exact keepsHandles_pure ()
  | text handle =>
      refine keepsHandles_get.bind fun session => ?_
      refine keepsHandles_change_bind (fun _ => rfl) fun _ => ?_
      split
      · exact keepsHandles_pure ()
      · exact keepsHandles_forgetInfo _
  | unusable => exact keepsHandles_throw _

theorem keepsHandles_bindGraph (handle : GivenText) (id : GraphId) :
    (bindGraph handle id).KeepsHandles := by
  cases handle with
  | absent => exact keepsHandles_throw _
  | text handle =>
      refine keepsHandles_get.bind fun session => ?_
      split
      · exact (keepsHandles_pure ()).bind fun _ => keepsHandles_change fun _ => rfl
      · exact (keepsHandles_dropGraph _).bind fun _ => keepsHandles_change fun _ => rfl
  | unusable => exact keepsHandles_throw _

theorem keepsHandles_introduceGraph (id : GraphId) (name handle : GivenText) :
    (introduceGraph id name handle).KeepsHandles := by
  have named : (nameGraph name id).KeepsHandles := by
    cases name with
    | absent => exact keepsHandles_pure ()
    | text name => exact keepsHandles_edit _
    | unusable => exact keepsHandles_throw _
  have introduced := named.bind fun _ => keepsHandles_bindGraph handle id
  refine KeepsHandles.bind (fun session => ?_) fun _ =>
    keepsHandles_get.bind fun _ => keepsHandles_pure _
  have same := introduced session
  rw [on_orDropGraph]
  rcases outcome : (nameGraph name id >>= fun _ => bindGraph handle id).on session with
    ⟨error | value, after⟩ <;> rw [outcome] at same
  · exact same
  · exact same

theorem keepsHandles_perform {command : Command} (keeps : command.KeepsHandles) :
    (perform command).KeepsHandles := by
  cases command with
  | renameNode | source | outputElementType | outputShape | setSource | setSources
  | replaceOutput | replaceNode | addControlDependency | removeControlDependency
  | clearControlDependencies | declareShape | declareElementType | setNames | addNames | sort =>
      exact keepsHandles_edit_bind fun _ => keepsHandles_pure _
  | showNode | inspectOutput | inferNode =>
      exact keepsHandles_edit_bind fun _ => keepsHandles_get.bind fun _ => keepsHandles_pure _
  | names | inspectAll => exact keepsHandles_get.bind fun _ => keepsHandles_pure _
  | countDistinct => exact keepsHandles_pure _
  | inspectNode node =>
      refine keepsHandles_get.bind fun session => ?_
      split
      · exact keepsHandles_pure _
      · exact keepsHandles_throw _
  | createGraph | createGraphFromOutputs =>
      exact keepsHandles_edit_bind fun _ => keepsHandles_introduceGraph _ _ _
  | dropGraph handle =>
      refine (keepsHandles_graph handle).bind fun id => (keepsHandles_dropGraph id).bind fun _ => ?_
      exact keepsHandles_change_bind (fun _ => rfl) fun _ => keepsHandles_pure _
  | inspectGraph | showGraph | boundaryPlaces | isMember | boundaryPorts =>
      exact (keepsHandles_graph _).bind fun _ => keepsHandles_get.bind fun _ =>
        keepsHandles_pure _
  | renameGraph | addBoundary | removeBoundary | validate | reshape =>
      exact keepsHandles_onGraph _ _
  | schedule handle =>
      exact (keepsHandles_graph handle).bind fun _ => keepsHandles_edit_bind fun _ =>
        keepsHandles_get.bind fun _ => keepsHandles_change_bind (fun _ => rfl) fun _ =>
          keepsHandles_pure _
  | isDynamic | boundaryPort | describe | summarize =>
      exact (keepsHandles_graph _).bind fun _ => keepsHandles_edit_bind fun _ =>
        keepsHandles_pure _
  | holdInfo graphHandle handle =>
      exact (keepsHandles_graph _).bind fun id => (keepsHandles_bindInfo handle id).bind fun _ =>
        keepsHandles_pure _
  | holdMembership node index handle =>
      refine keepsHandles_get.bind fun session => ?_
      dsimp only
      split
      · exact keepsHandles_throw _
      · exact (keepsHandles_bindInfo handle _).bind fun _ => keepsHandles_pure _
  | isFresh | knows =>
      exact keepsHandles_get.bind fun _ => (keepsHandles_ofExcept _).bind fun _ =>
        keepsHandles_get.bind fun _ => keepsHandles_pure _
  | dropInfo handle =>
      exact keepsHandles_get.bind fun _ => (keepsHandles_ofExcept _).bind fun id =>
        keepsHandles_change_bind (fun _ => rfl) fun _ =>
          (keepsHandles_forgetInfo id).bind fun _ => keepsHandles_pure _
  | _ => exact keeps.elim

end KeepsHandles

/-- An operation on the network that the session answers was answered by the network. -/
theorem of_on_edit {operation : Edit α} {session after : Session} {value : α}
    (outcome : (edit operation).on session = (.ok value, after)) :
    operation.on session.network = (.ok value, after.network) := by
  rw [on_edit] at outcome
  rcases answered : operation.on session.network with ⟨error | given, network⟩ <;>
    rw [answered] at outcome <;> cases outcome
  rfl

end Action

/-- What handles hold is alive. -/
def Session.Grounded (session : Session) : Prop :=
  ∀ id ∈ session.held, session.network.Alive id

namespace Table

variable {γ : Type}

theorem values_erase_subset (table : Table γ) (handle : String) :
    (table.erase handle).values ⊆ table.values :=
  List.map_subset _ (List.filter_subset_self _)

theorem mem_values_insert {table : Table γ} {handle : String} {added value : γ}
    (member : value ∈ (table.insert handle added).values) :
    value ∈ table.values ∨ value = added := by
  rw [values, insert, List.map_append] at member
  rcases List.mem_append.mp member with former | new
  · exact Or.inl (table.values_erase_subset handle former)
  · exact Or.inr (List.mem_singleton.mp new)

end Table

namespace Session

open Network

variable {session after : Session} {α β : Type}

theorem mem_held {id : NodeId} :
    id ∈ session.held ↔ id ∈ session.nodes.values ∨ ∃ input ∈ session.inputs.values,
      input.node = id := by
  rw [held, List.mem_append, List.mem_map]

namespace Grounded

theorem of_grows (grounded : session.Grounded) (grows : Grows session.network after.network)
    (held : after.held ⊆ session.held) : after.Grounded :=
  fun id member => grows id (grounded id (held member))

theorem bind {action : Action α} {next : α → Action β} (first : (action.on session).2.Grounded)
    (second : ∀ value between, action.on session = (.ok value, between) → between.Grounded →
      ((next value).on between).2.Grounded) :
    ((action >>= next).on session).2.Grounded := by
  rw [Action.on_bind]
  rcases outcome : action.on session with ⟨error | value, between⟩ <;> rw [outcome] at first
  · exact first
  · exact second value between outcome first

theorem edit (grounded : session.Grounded) {operation : Edit α} (grows : operation.Within Grows) :
    ((Action.edit operation).on session).2.Grounded :=
  grounded.of_grows (grows session.network) (List.Subset.refl _)

/-- A handle may be bound to a node that is alive. -/
theorem bindNode (grounded : session.Grounded) {node : NodeId}
    (alive : session.network.Alive node) (handle : GivenText) :
    ((Action.bindNode handle node).on session).2.Grounded := by
  cases handle with
  | absent => exact grounded
  | text handle =>
      intro id member
      rcases mem_held.mp member with inNodes | inInputs
      · rcases Table.mem_values_insert inNodes with former | rfl
        · exact grounded id (mem_held.mpr (Or.inl former))
        · exact alive
      · exact grounded id (mem_held.mpr (Or.inr inInputs))
  | unusable => exact grounded

theorem bindInput (grounded : session.Grounded) {input : InputPort}
    (alive : session.network.Alive input.node) (handle : GivenText) :
    ((Action.bindInput handle input).on session).2.Grounded := by
  cases handle with
  | absent => exact grounded
  | text handle =>
      intro id member
      rcases mem_held.mp member with inNodes | ⟨other, inInputs, rfl⟩
      · exact grounded id (mem_held.mpr (Or.inl inNodes))
      · rcases Table.mem_values_insert inInputs with former | rfl
        · exact grounded _ (mem_held.mpr (Or.inr ⟨other, former, rfl⟩))
        · exact alive
  | unusable => exact grounded

/-- An operation that answers with a live node, after which a handle is bound to the node. -/
theorem edit_bindNode (grounded : session.Grounded) {operation : Edit α} (node : α → NodeId)
    (grows : operation.Within Grows)
    (alive : ∀ value network, operation.on session.network = (.ok value, network) →
      network.Alive (node value)) (handle : GivenText) (answer : α → β) :
    ((Action.edit operation >>= fun value =>
      Action.bindNode handle (node value) >>= fun _ => pure (answer value)).on
        session).2.Grounded := by
  refine bind (grounded.edit grows) fun value between outcome grounded => ?_
  refine bind (grounded.bindNode ?_ handle) fun _ after _ grounded => grounded
  exact alive value _ (Action.of_on_edit outcome)

theorem createChain (grounded : session.Grounded) (handle : GivenText) (source : OutputPort)
    (length : Nat) : ((Action.createChain handle source length).on session).2.Grounded := by
  induction length generalizing source session with
  | zero => exact bind (grounded.edit (Edit.within_ask _)) fun _ _ _ grounded => grounded
  | succ length ih =>
      refine bind (grounded.edit (Edit.grows_create _ _ _)) fun node between outcome grounded => ?_
      have alive := Edit.alive_of_on_create (Action.of_on_edit outcome)
      exact bind (grounded.bindNode alive handle) fun _ after _ grounded => ih grounded ⟨node, 0⟩

theorem dropNode (grounded : session.Grounded) (handle : String) :
    ((Action.perform (.dropNode handle)).on session).2.Grounded := by
  refine bind grounded fun asked between _ grounded => bind ?_ fun _ after _ grounded => ?_
  · rw [Action.on_ofExcept]
    exact grounded
  · refine grounded.of_grows (refl_of Grows _) fun id member => mem_held.mpr ?_
    exact (mem_held.mp member).imp_left fun inNodes => Table.values_erase_subset _ handle inNodes

theorem dropInput (grounded : session.Grounded) (handle : String) :
    ((Action.perform (.dropInput handle)).on session).2.Grounded := by
  refine bind grounded fun asked between _ grounded => bind ?_ fun _ after _ grounded => ?_
  · rw [Action.on_ofExcept]
    exact grounded
  · refine grounded.of_grows (refl_of Grows _) fun id member => mem_held.mpr ?_
    refine (mem_held.mp member).imp_right ?_
    rintro ⟨input, inInputs, same⟩
    exact ⟨input, Table.values_erase_subset _ handle inInputs, same⟩

/-- No command leaves a handle with a node that is not there. -/
theorem perform (grounded : session.Grounded) (coherent : session.network.Coherent)
    (command : Command) : ((Action.perform command).on session).2.Grounded := by
  by_cases keeps : command.KeepsHandles
  · refine grounded.of_grows (Action.grows_perform command session) ?_
    rw [Action.keepsHandles_perform keeps session]
    exact List.Subset.refl _
  cases command with
  | create operator sources name handle =>
      exact grounded.edit_bindNode id (Edit.grows_create operator sources name)
        (fun _ _ outcome => Edit.alive_of_on_create outcome) handle Answer.node
  | createChain source length handle =>
      exact bind (grounded.createChain handle source length) fun _ _ _ grounded => grounded
  | inspectInput input handle =>
      refine bind (grounded.edit (Edit.within_ask _)) fun source between outcome grounded => ?_
      obtain ⟨same, reads⟩ := Edit.of_on_source (Action.of_on_edit outcome)
      obtain ⟨node, alive, -⟩ := alive_of_source? reads
      rw [← same] at alive
      exact bind (grounded.bindInput ⟨node, alive⟩ handle) fun _ _ _ grounded => grounded
  | dropNode handle => exact grounded.dropNode handle
  | dropInput handle => exact grounded.dropInput handle
  | holdResult graph index handle =>
      refine bind ?_ fun id between found grounded => ?_
      · rw [Action.on_graph]
        exact grounded
      · rw [Action.on_graph] at found
        obtain ⟨-, rfl⟩ := Prod.mk.inj found
        refine grounded.edit_bindNode OutputPort.node (Edit.within_ask _)
          (fun port network outcome => ?_) handle fun port => Answer.node port.node
        rw [Edit.on_ask] at outcome
        obtain ⟨selected, rfl⟩ := Prod.mk.inj outcome
        exact coherent.alive_of_portAt selected
  | addOutput target graph handle =>
      refine bind ?_ fun id between found grounded => ?_
      · rw [Action.on_graph]
        exact grounded
      · have grows := Edit.nodeKeeping_grows.addOutput (Edit.grows_schedule id)
          (fun network _ => network.grows_modifyBoundary id .results _) target
        exact grounded.edit_bindNode OutputPort.node grows
          (fun _ _ outcome => Edit.alive_of_on_addOutput outcome) handle Answer.port
  | _ => exact absurd trivial keeps

/-- A release keeps what handles hold. -/
theorem release (grounded : session.Grounded) : session.release.Grounded := by
  intro id member
  refine alive_release_iff.mpr ⟨?_, grounded id member⟩
  refine (Lifetime.settle_placed session.network.lt_nextId_of_mem_ids id
    (mem_ids.mpr (grounded id member))).resolve_right fun dropped => dropped.1 ?_
  exact List.mem_append_left _ member

end Grounded

/-- In every session that commands lead to, what handles hold is alive. -/
theorem Reachable.grounded (reachable : session.Reachable) : session.Grounded := by
  obtain ⟨commands, rfl⟩ := reachable
  induction commands using List.reverseRecOn with
  | nil =>
      intro id member
      cases member
  | append_singleton commands command ih =>
      have coherent : (empty.run commands).network.Coherent := Reachable.coherent ⟨commands, rfl⟩
      rw [Session.run, List.foldl_append]
      have logged : (empty.run commands).clearEvents.network.Coherent := coherent.of_move .logged
      have grounded : (empty.run commands).clearEvents.Grounded := ih
      exact (grounded.perform logged command).release

end Session
end TensorGraph
