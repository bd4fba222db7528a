import TensorGraph.Proofs.Coherence
import TensorGraph.Proofs.Replacing

/-!
# Mutations are all or nothing

The operations that edit a node, an edge, a name or the boundary of a graph check everything
that may refuse them before they change anything.  For most of them this is how they are
written; that it is so for putting one output or node into the place of another rests on the
agreement of both ends of all edges.  A refused mutation therefore leaves the network as it
was, and a session too, as everything in it is still held.
-/

namespace TensorGraph

/-- An operation that edits a node, an edge, a name or the boundary of a graph. -/
inductive Mutation where
  | setSource (input : InputPort) (source : OutputPort)
  | setSources (node : NodeId) (sources : List OutputPort)
  | replaceOutput (former replacement : OutputPort)
  | replaceNode (target replacement : NodeId)
  | addControlDependency (dependent dependency : NodeId)
  | removeControlDependency (dependent dependency : NodeId)
  | clearControlDependencies (dependent : NodeId)
  | inferNode (node : NodeId)
  | declareShape (node : NodeId) (shape : PartialShape)
  | declareElementType (node : NodeId) (elementType : ElementType)
  | setNames (port : OutputPort) (names : List String)
  | addNames (port : OutputPort) (names : List String)
  | addBoundary (part : Boundary) (graph : GraphId) (nodes : List NodeId)
  | removeBoundary (part : Boundary) (graph : GraphId) (node : NodeId)

/-- The operation itself, without its answer. -/
def Mutation.edit : Mutation → Edit Unit
  | setSource input source => Edit.setSource input source
  | setSources node sources => Edit.setSources node sources
  | replaceOutput former replacement => Edit.replaceOutput former replacement
  | replaceNode target replacement => Edit.replaceNode target replacement
  | addControlDependency dependent dependency => Edit.addControlDependency dependent dependency
  | removeControlDependency dependent dependency =>
      Edit.removeControlDependency dependent dependency >>= fun _ => pure ()
  | clearControlDependencies dependent => Edit.clearControlDependencies dependent
  | inferNode node => Edit.inferNode node
  | declareShape node shape => Edit.declareShape node shape
  | declareElementType node elementType => Edit.declareElementType node elementType
  | setNames port names => Edit.setNames port names
  | addNames port names => Edit.addNames port names
  | addBoundary part graph nodes => Edit.addBoundary part graph nodes
  | removeBoundary part graph node => Edit.removeBoundary part graph node

/-- The mutation that a command asks for, if it asks for one; a boundary is edited only if the
handle of its graph is bound. -/
def Session.mutation? (session : Session) : Command → Option Mutation
  | .setSource input source => some (.setSource input source)
  | .setSources node sources => some (.setSources node sources)
  | .replaceOutput former replacement => some (.replaceOutput former replacement)
  | .replaceNode target replacement => some (.replaceNode target replacement)
  | .addControlDependency dependent dependency =>
      some (.addControlDependency dependent dependency)
  | .removeControlDependency dependent dependency =>
      some (.removeControlDependency dependent dependency)
  | .clearControlDependencies dependent => some (.clearControlDependencies dependent)
  | .inferNode node => some (.inferNode node)
  | .declareShape node shape => some (.declareShape node shape)
  | .declareElementType node elementType => some (.declareElementType node elementType)
  | .setNames port names => some (.setNames port names)
  | .addNames port names => some (.addNames port names)
  | .addBoundary part nodes handle =>
      (session.graphs.get? handle).map fun graph => .addBoundary part graph nodes
  | .removeBoundary part node handle =>
      (session.graphs.get? handle).map fun graph => .removeBoundary part graph node
  | _ => none

namespace Edit

open Network

variable {α β : Type} {network : Network}

/-- If the operation is refused, it has changed nothing. -/
def AllOrNothing (edit : Edit α) (network : Network) : Prop :=
  ∀ error, (edit.on network).1 = .error error → (edit.on network).2 = network

theorem allOrNothing_of_unchanged {edit : Edit α} (unchanged : (edit.on network).2 = network) :
    edit.AllOrNothing network :=
  fun _ _ => unchanged

theorem allOrNothing_change (update : Network → Network) :
    (change update).AllOrNothing network := by
  intro error refused
  rw [on_change] at refused
  cases refused

theorem allOrNothing_pure (value : α) : (pure value : Edit α).AllOrNothing network :=
  allOrNothing_of_unchanged rfl

theorem allOrNothing_throw (error : GraphError) : (throw error : Edit α).AllOrNothing network :=
  allOrNothing_of_unchanged rfl

/-- A check followed by an operation that is all or nothing. -/
theorem AllOrNothing.bind {edit : Edit α} {next : α → Edit β}
    (unchanged : (edit.on network).2 = network)
    (second : ∀ value, (next value).AllOrNothing network) :
    (edit >>= next).AllOrNothing network := by
  intro error refused
  rw [on_bind] at refused ⊢
  rcases outcome : edit.on network with ⟨result, after⟩
  rw [outcome] at unchanged
  simp only [outcome] at refused ⊢
  obtain rfl : after = network := unchanged
  cases result with
  | error _ => rfl
  | ok value => exact second value error refused

/-- An operation followed by an answer. -/
theorem AllOrNothing.map {edit : Edit α} (first : edit.AllOrNothing network) (answer : α → β) :
    (edit >>= fun value => pure (answer value)).AllOrNothing network := by
  intro error refused
  rw [on_bind] at refused ⊢
  rcases outcome : edit.on network with ⟨result, after⟩
  have kept := first
  rw [AllOrNothing, outcome] at kept
  simp only [outcome] at refused ⊢
  cases result with
  | error cause => exact kept cause rfl
  | ok value => cases refused

theorem AllOrNothing.ite {condition : Prop} [Decidable condition] {accepted refused : Edit α}
    (positive : accepted.AllOrNothing network) (negative : refused.AllOrNothing network) :
    (if condition then accepted else refused).AllOrNothing network := by
  split
  · exact positive
  · exact negative

theorem unchanged_ask (question : Network → Except GraphError α) :
    ((ask question).on network).2 = network := by
  rw [on_ask]

section Operations

variable (network)

theorem allOrNothing_setSource (input : InputPort) (source : OutputPort) :
    (setSource input source).AllOrNothing network :=
  .bind (unchanged_ask _) fun _ => .bind (unchanged_ask _) fun _ => allOrNothing_change _

theorem allOrNothing_setSources (id : NodeId) (sources : List OutputPort) :
    (setSources id sources).AllOrNothing network :=
  .bind (on_forM_checkPort sources network) fun _ => .bind (unchanged_ask _) fun _ =>
    allOrNothing_change _

theorem allOrNothing_addControlDependency (dependent dependency : NodeId) :
    (addControlDependency dependent dependency).AllOrNothing network := by
  rw [addControlDependency]
  refine .ite (.bind rfl fun _ => allOrNothing_throw _) ?_
  exact .bind (unchanged_ask _) fun _ => .bind (unchanged_ask _) fun _ =>
    .ite (allOrNothing_change _) (allOrNothing_pure ())

theorem allOrNothing_removeControlDependency (dependent dependency : NodeId) :
    (removeControlDependency dependent dependency).AllOrNothing network :=
  .bind (unchanged_ask _) fun _ =>
    .ite ((allOrNothing_change _).map fun _ => true) (allOrNothing_pure false)

theorem allOrNothing_clearControlDependencies (dependent : NodeId) :
    (clearControlDependencies dependent).AllOrNothing network :=
  .bind (unchanged_ask _) fun _ => .ite (allOrNothing_change _) (allOrNothing_pure ())

theorem allOrNothing_inferNode (id : NodeId) : (inferNode id).AllOrNothing network := by
  refine .bind (unchanged_ask _) fun node => .bind rfl fun found => ?_
  split
  · exact allOrNothing_throw _
  · exact allOrNothing_change _

theorem allOrNothing_redeclare (id : NodeId) (update : TensorType → TensorType)
    (refusal : NodeLabel → Misuse) : (redeclare id update refusal).AllOrNothing network := by
  refine .bind (unchanged_ask _) fun node => ?_
  split
  · exact allOrNothing_change _
  · exact allOrNothing_throw _

theorem allOrNothing_updateNames (port : OutputPort) (given : NameSet)
    (update : NameSet → NameSet) : (updateNames port given update).AllOrNothing network :=
  .bind (unchanged_ask _) fun _ => .bind rfl fun _ => .bind (unchanged_ask _) fun _ =>
    allOrNothing_change _

theorem allOrNothing_addBoundary (part : Boundary) (id : GraphId) (nodes : List NodeId) :
    (addBoundary part id nodes).AllOrNothing network :=
  .bind (unchanged_ask _) fun _ => allOrNothing_change _

theorem allOrNothing_removeBoundary (part : Boundary) (id : GraphId) (node : NodeId) :
    (removeBoundary part id node).AllOrNothing network :=
  .bind rfl fun _ => .ite (.bind rfl fun _ => allOrNothing_change _) (allOrNothing_change _)

end Operations

theorem allOrNothing_replaceOutput (linked : network.Linked) (former replacement : OutputPort) :
    (replaceOutput former replacement).AllOrNothing network := by
  intro error refused
  rw [on_replaceOutput linked] at refused ⊢
  split at refused
  · cases refused
  next invalid => rw [if_neg invalid]

/-- Nodes that are not both alive do not take each other's place. -/
theorem on_replaceNode_of_dead {target replacement : NodeId}
    (dead : ¬ (network.Alive target ∧ network.Alive replacement)) :
    ∃ error, (replaceNode target replacement).on network = (.error error, network) := by
  rw [replaceNode, on_bind, on_node]
  cases found : network.node? target with
  | none => exact ⟨_, rfl⟩
  | some node =>
      dsimp only
      rw [on_bind, on_node]
      cases known : network.node? replacement with
      | none => exact ⟨_, rfl⟩
      | some other => exact absurd ⟨⟨node, found⟩, ⟨other, known⟩⟩ dead

/-- Putting a node into the place of another is refused at the beginning or not at all. -/
theorem allOrNothing_replaceNode (intact : network.Intact) (target replacement : NodeId) :
    (replaceNode target replacement).AllOrNothing network := by
  intro error refused
  by_cases alive : network.Alive target ∧ network.Alive replacement
  · rw [on_replaceNode intact alive.1 alive.2] at refused ⊢
    split_ifs at refused ⊢
    · rfl
    · rfl
  · obtain ⟨cause, outcome⟩ := on_replaceNode_of_dead alive
    rw [outcome]

theorem replaceOutput_ok_iff (linked : network.Linked) {former replacement : OutputPort} :
    ((replaceOutput former replacement).on network).1 = .ok () ↔
      replacement.index < network.outputCount replacement.node := by
  rw [on_replaceOutput linked]
  split
  next valid => exact iff_of_true rfl valid
  next invalid => exact iff_of_false (fun accepted => by cases accepted) invalid

theorem replaceNode_ok_iff (intact : network.Intact) {target replacement : NodeId} :
    ((replaceNode target replacement).on network).1 = .ok () ↔
      (network.Alive target ∧ network.Alive replacement) ∧
      (target ≠ replacement → network.isResult target = false ∧
        network.outputCount target = network.outputCount replacement) := by
  by_cases alive : network.Alive target ∧ network.Alive replacement
  · rw [on_replaceNode intact alive.1 alive.2]
    split_ifs <;> simp_all
  · obtain ⟨cause, outcome⟩ := on_replaceNode_of_dead alive
    rw [outcome]
    exact iff_of_false (fun accepted => by cases accepted) fun both => alive both.1

end Edit

open Network in
/-- A refused mutation leaves the network as it was. -/
theorem Mutation.allOrNothing {network : Network} (intact : network.Intact)
    (mutation : Mutation) : mutation.edit.AllOrNothing network := by
  cases mutation with
  | setSource input source => exact Edit.allOrNothing_setSource network input source
  | setSources node sources => exact Edit.allOrNothing_setSources network node sources
  | replaceOutput former replacement =>
      exact Edit.allOrNothing_replaceOutput intact.linked former replacement
  | replaceNode target replacement =>
      exact Edit.allOrNothing_replaceNode intact target replacement
  | addControlDependency dependent dependency =>
      exact Edit.allOrNothing_addControlDependency network dependent dependency
  | removeControlDependency dependent dependency =>
      exact (Edit.allOrNothing_removeControlDependency network dependent dependency).map _
  | clearControlDependencies dependent =>
      exact Edit.allOrNothing_clearControlDependencies network dependent
  | inferNode node => exact Edit.allOrNothing_inferNode network node
  | declareShape node shape => exact Edit.allOrNothing_redeclare network node _ _
  | declareElementType node elementType => exact Edit.allOrNothing_redeclare network node _ _
  | setNames port names =>
      exact Edit.allOrNothing_updateNames network port (.ofList names) fun _ => .ofList names
  | addNames port names =>
      exact Edit.allOrNothing_updateNames network port (.ofList names) (·.union (.ofList names))
  | addBoundary part graph nodes => exact Edit.allOrNothing_addBoundary network part graph nodes
  | removeBoundary part graph node =>
      exact Edit.allOrNothing_removeBoundary network part graph node

namespace Action

/-- The action does to the network what the mutation does, and answers if that is accepted. -/
def Carries (action : Action Answer) (mutation : Mutation) (session : Session) : Prop :=
  match mutation.edit.on session.network with
  | (.ok _, network) => ∃ answer, action.on session = (.ok answer, { session with network })
  | (.error error, network) =>
      action.on session = (.error (.refused error), { session with network })

variable {session : Session}

theorem carries_edit {mutation : Mutation} {next : Unit → Action Answer}
    (answers : ∀ session, ∃ answer, (next ()).on session = (.ok answer, session)) :
    (edit mutation.edit >>= next).Carries mutation session := by
  rw [Carries, on_bind, on_edit]
  rcases mutation.edit.on session.network with ⟨error | _, network⟩
  · rfl
  · exact answers { session with network }

theorem carries_onGraph {mutation : Mutation} {handle : String} {id : GraphId}
    {operation : GraphId → Edit Unit} (bound : session.graphs.get? handle = some id)
    (same : operation id = mutation.edit) :
    (onGraph handle operation).Carries mutation session := by
  rw [Carries, on_onGraph bound, same]
  rcases mutation.edit.on session.network with ⟨error | _, network⟩
  · rfl
  · exact ⟨.done, rfl⟩

/-- A command that asks for a mutation carries it out. -/
theorem carries_perform {command : Command} {mutation : Mutation}
    (asks : session.mutation? command = some mutation) :
    (perform command).Carries mutation session := by
  have done (session : Session) :
      ∃ answer, (pure .done : Action Answer).on session = (.ok answer, session) :=
    ⟨.done, rfl⟩
  cases command with
  | removeControlDependency dependent dependency =>
      obtain rfl := Option.some.inj asks
      rw [Carries, Mutation.edit, Edit.on_bind, perform, on_bind, on_edit]
      rcases (Edit.removeControlDependency dependent dependency).on session.network with
        ⟨error | removed, network⟩
      · rfl
      · exact ⟨.truth removed, rfl⟩
  | inferNode node =>
      obtain rfl := Option.some.inj asks
      exact carries_edit fun session => ⟨.tensorReports (session.network.reportOutputs node), rfl⟩
  | addBoundary part nodes handle =>
      obtain ⟨id, bound, rfl⟩ := Option.map_eq_some_iff.mp asks
      exact carries_onGraph bound rfl
  | removeBoundary part node handle =>
      obtain ⟨id, bound, rfl⟩ := Option.map_eq_some_iff.mp asks
      exact carries_onGraph bound rfl
  | setSource _ _ | setSources _ _ | replaceOutput _ _ | replaceNode _ _
  | addControlDependency _ _ | clearControlDependencies _ | declareShape _ _
  | declareElementType _ _ | setNames _ _ | addNames _ _ =>
      obtain rfl := Option.some.inj asks
      exact carries_edit done
  | _ => cases asks

end Action

namespace Session

variable {session : Session}

theorem mutation?_clearEvents (session : Session) (command : Command) :
    session.clearEvents.mutation? command = session.mutation? command := by
  cases command <;> rfl

/-- A command that asks for a mutation carries it out, and is answered if it is accepted. -/
theorem step_of_asks {command : Command} {mutation : Mutation}
    (asks : session.mutation? command = some mutation) :
    (∃ error network,
      mutation.edit.on session.clearEvents.network = (.error error, network) ∧
      session.step command =
        (.error (.refused error), { session.clearEvents with network }.release)) ∨
    ∃ answer network, mutation.edit.on session.clearEvents.network = (.ok (), network) ∧
      session.step command = (.ok answer, { session.clearEvents with network }.release) := by
  have carries := Action.carries_perform ((session.mutation?_clearEvents command).trans asks)
  rw [Action.Carries] at carries
  rcases outcome : mutation.edit.on session.clearEvents.network with ⟨error | _, network⟩ <;>
    rw [outcome] at carries
  · exact Or.inl ⟨error, network, rfl, by rw [step, carries]⟩
  · obtain ⟨answer, answered⟩ := carries
    exact Or.inr ⟨answer, network, rfl, by rw [step, answered]⟩

/-- A refused mutation of a session leaves it as it was, apart from the events. -/
theorem Reachable.step_eq_of_refused (reachable : session.Reachable) {command : Command}
    {mutation : Mutation} (asks : session.mutation? command = some mutation) {fault : Fault}
    {after : Session} (refused : session.step command = (.error fault, after)) :
    after = session.clearEvents := by
  rcases step_of_asks asks with
    ⟨error, network, outcome, stepped⟩ | ⟨answer, network, -, stepped⟩ <;>
    rw [stepped] at refused
  · have intact : session.clearEvents.network.Intact := reachable.intact.of_moves (.single .logged)
    have unchanged := Mutation.allOrNothing intact mutation error
    rw [outcome] at unchanged
    obtain rfl : network = session.clearEvents.network := unchanged rfl
    have kept : session.clearEvents.network.Kept session.clearEvents.held := reachable.kept
    rw [← (Prod.mk.inj refused).2]
    exact congrArg (fun network => { session.clearEvents with network })
      (Network.release_of_kept kept)
  · cases (Prod.mk.inj refused).1

/-- In every session that commands lead to, a mutation that is refused leaves the network
exactly as it was, and the command that asked for it leaves the whole session so, apart from
the events of the command before.  Whether consumers of an output can be moved, or a node put
into the place of another, is decided before anything is rewired. -/
theorem Reachable.mutations_all_or_nothing (reachable : session.Reachable) :
    (∀ (mutation : Mutation) (error : GraphError) (after : Network),
      mutation.edit.on session.network = (.error error, after) → after = session.network) ∧
    (∀ (command : Command) (mutation : Mutation) (fault : Fault) (after : Session),
      session.mutation? command = some mutation →
        session.step command = (.error fault, after) → after = session.clearEvents) ∧
    (∀ former replacement, ((Edit.replaceOutput former replacement).on session.network).1 = .ok () ↔
      replacement.index < session.network.outputCount replacement.node) ∧
    ∀ target replacement, ((Edit.replaceNode target replacement).on session.network).1 = .ok () ↔
      (session.network.Alive target ∧ session.network.Alive replacement) ∧
      (target ≠ replacement → session.network.isResult target = false ∧
        session.network.outputCount target = session.network.outputCount replacement) := by
  refine ⟨fun mutation error after refused => ?_,
    fun command mutation fault after asks refused => reachable.step_eq_of_refused asks refused,
    fun former replacement => Edit.replaceOutput_ok_iff reachable.linked,
    fun target replacement => Edit.replaceNode_ok_iff reachable.intact⟩
  have unchanged := Mutation.allOrNothing reachable.intact mutation error
  rw [refused] at unchanged
  exact unchanged rfl

/-- A concatenation that reads a parameter twice, with a result and a state variable that read
the concatenation. -/
def occupied : Session :=
  empty.run [
    .create (.parameter { elementType := .f32, shape := .fixed [2, 3] }) [] none (.text "feed"),
    .create (.concat 0) [⟨1, 0⟩, ⟨1, 0⟩] none (.text "joint"),
    .create .result [⟨2, 0⟩] none (.text "outcome"),
    .create (.assign "state") [⟨2, 0⟩] none (.text "store")]

theorem occupied_reachable : occupied.Reachable :=
  ⟨_, rfl⟩

theorem answers_occupied :
    ((Edit.replaceOutput ⟨1, 0⟩ ⟨2, 1⟩).on occupied.network).1 = .error (.indexOutOfRange 1 1) ∧
    (occupied.step (.replaceNode 2 4)).1 =
      .error (.refused (.invalidOperation (.outputCounts ⟨2, "Concat_2", "Concat"⟩ 1
        ⟨4, "Assign_4", "Assign"⟩ 0))) ∧
    occupied.network.isResult 3 = true := by
  cbv
  exact ⟨rfl, trivial⟩

theorem refusals_occupied :
    ((Edit.replaceOutput ⟨1, 0⟩ ⟨2, 1⟩).on occupied.network).2 = occupied.network ∧
    (occupied.step (.replaceNode 2 4)).2 = occupied.clearEvents ∧
    ((Edit.replaceNode 3 2).on occupied.network).1 ≠ .ok () := by
  obtain ⟨unchanged, stepped, -, accepted⟩ := occupied_reachable.mutations_all_or_nothing
  obtain ⟨outOfRange, counts, isResult⟩ := answers_occupied
  refine ⟨unchanged (.replaceOutput ⟨1, 0⟩ ⟨2, 1⟩) _ _ (Edit.on_eq_of_error outOfRange),
    stepped (.replaceNode 2 4) _ _ _ rfl (step_eq_of_error counts), fun accepts => ?_⟩
  have noResult := (((accepted 3 2).mp accepts).2 (by decide)).1
  rw [isResult] at noResult
  cases noResult

end Session
end TensorGraph
