import TensorGraph.Proofs.Operations
import TensorGraph.Session.Step

/-!
# Moves of a session

Every command, whatever it answers, takes the network of a session through moves,
and so does the release that follows it.  The networks of all sessions that some
commands lead to are therefore found by moves from the empty network.
-/

namespace TensorGraph

open Network

/-- The command edits neither edges of nodes nor the boundary of a graph. -/
def Command.KeepsEdges : Command → Prop
  | setSource _ _ | setSources _ _ | replaceOutput _ _ | replaceNode _ _ => False
  | addControlDependency _ _ | removeControlDependency _ _ | clearControlDependencies _ => False
  | addBoundary _ _ _ | removeBoundary _ _ _ | addOutput _ _ _ => False
  | _ => True

namespace Session

/-- The networks of the sessions are related. -/
def Across (inner : Network → Network → Prop) (before after : Session) : Prop :=
  inner before.network after.network

/-- The relation holds between sessions that differ in their networks alone if the inner one
holds between these, and between sessions that differ in handles of nodes, inputs and graphs. -/
class Carries (inner : outParam (Network → Network → Prop))
    (related : Session → Session → Prop) : Prop where
  edited : ∀ session network, inner session.network network →
    related session { session with network }
  bound : ∀ session other, other.network = session.network → other.infos = session.infos →
    related session other

instance (inner : Network → Network → Prop) [IsPreorder Network inner] :
    IsPreorder Session (Across inner) where
  refl session := refl_of inner session.network
  trans _ _ _ first second := trans_of inner first second

instance (inner : Network → Network → Prop) [IsPreorder Network inner] :
    Carries inner (Across inner) where
  edited _ _ reached := reached
  bound session other same _ := by
    rw [Across, same]
    exact refl_of inner session.network

end Session

namespace Action

variable {α β : Type}

/-- Whatever its outcome, the operation leads from every session to one that is related to
it. -/
def Leads (related : Session → Session → Prop) (action : Action α) : Prop :=
  ∀ session, related session (action.on session).2

/-- Whatever its outcome, the operation leads from every network to one that is related
to it. -/
abbrev Within (related : Network → Network → Prop) (action : Action α) : Prop :=
  action.Leads (Session.Across related)

/-- Whatever its outcome, the operation takes the network through moves. -/
abbrev Follows (action : Action α) : Prop :=
  action.Within Moves

/-- The relation holds before and after a graph is dropped, and before and after handles come to
hold, or no longer hold, what a graph shares with its nodes. -/
structure InfoKeeping (related : Session → Session → Prop) : Prop where
  graphDropped : ∀ id, (dropGraph id).Leads related
  infoBound : ∀ handle id, (bindInfo handle id).Leads related
  infoErased : ∀ session handle id, session.infos.get? handle = some id →
    related session ({ session with infos := session.infos.erase handle }.forgetInfo id)

section Composition

variable {related : Session → Session → Prop} [IsPreorder Session related]

theorem leads_pure (value : α) : (pure value : Action α).Leads related :=
  refl_of related

theorem leads_throw (fault : Fault) : (throw fault : Action α).Leads related :=
  refl_of related

theorem leads_get : (get : Action Session).Leads related :=
  refl_of related

theorem leads_ofExcept (outcome : Except Fault α) : (ofExcept outcome).Leads related := by
  intro session
  rw [on_ofExcept]
  exact refl_of related session

theorem Leads.bind {action : Action α} {next : α → Action β} (first : action.Leads related)
    (second : ∀ value, (next value).Leads related) : (action >>= next).Leads related := by
  intro session
  have reached := first session
  rw [on_bind]
  rcases outcome : action.on session with ⟨result, after⟩
  rw [outcome] at reached
  cases result with
  | ok value => exact trans_of related reached (second value after)
  | error fault => exact reached

theorem leads_graph (handle : String) : (graph handle).Leads related :=
  leads_get.bind fun _ => leads_ofExcept _

section Carries

variable {inner : Network → Network → Prop} [carries : Session.Carries inner related]

include carries

omit [IsPreorder Session related] in
theorem leads_edit {operation : Edit α} (within : operation.Within inner) :
    (edit operation).Leads related := by
  intro session
  rw [on_edit]
  exact carries.edited session _ (within session.network)

omit [IsPreorder Session related] in
/-- A change of handles that hold nothing of graphs. -/
theorem leads_change {update : Session → Session}
    (networks : ∀ session, (update session).network = session.network)
    (infos : ∀ session, (update session).infos = session.infos) :
    (change update).Leads related :=
  fun session => carries.bound session _ (networks session) (infos session)

theorem leads_bindNode (handle : GivenText) (node : NodeId) :
    (bindNode handle node).Leads related := by
  cases handle with
  | absent => exact leads_pure ()
  | text handle => exact leads_change (fun _ => rfl) fun _ => rfl
  | unusable => exact leads_throw _

theorem leads_bindInput (handle : GivenText) (input : InputPort) :
    (bindInput handle input).Leads related := by
  cases handle with
  | absent => exact leads_pure ()
  | text handle => exact leads_change (fun _ => rfl) fun _ => rfl
  | unusable => exact leads_throw _

/-- An operation on the network after which the session answers. -/
theorem leads_edit_bind {operation : Edit α} {next : α → Action β}
    (within : operation.Within inner) (second : ∀ value, (next value).Leads related) :
    (edit operation >>= next).Leads related :=
  (leads_edit within).bind second

theorem leads_change_bind {update : Session → Session} {next : Unit → Action β}
    (networks : ∀ session, (update session).network = session.network)
    (infos : ∀ session, (update session).infos = session.infos)
    (second : ∀ value, (next value).Leads related) : (change update >>= next).Leads related :=
  (leads_change networks infos).bind second

theorem leads_onGraph (handle : String) {operation : GraphId → Edit Unit}
    (within : ∀ id, (operation id).Within inner) : (onGraph handle operation).Leads related :=
  (leads_graph handle).bind fun id => leads_edit_bind (within id) fun _ => leads_pure _

end Carries

section EdgeKeeping

variable {inner : Network → Network → Prop} [carries : Session.Carries inner related]
  (keeping : Edit.EdgeKeeping inner) (infos : InfoKeeping related)

include carries keeping

/-- A new graph, which nothing refers to, is removed if there is a fault. -/
theorem Leads.orDropGraph {action : Action Unit} (leads : action.Leads related) (id : GraphId) :
    (orDropGraph id action).Leads related := by
  intro session
  have reached := leads session
  rw [on_orDropGraph]
  rcases outcome : action.on session with ⟨result, after⟩
  rw [outcome] at reached
  cases result with
  | ok value => exact reached
  | error fault =>
      exact trans_of related reached
        (carries.edited after _ (keeping.graphDropped after.network id))

theorem leads_nameGraph (name : GivenText) (id : GraphId) :
    (nameGraph name id).Leads related := by
  cases name with
  | absent => exact leads_pure ()
  | text name => exact leads_edit (keeping.graphRenamed id name)
  | unusable => exact leads_throw _

variable [IsPreorder Network inner]

theorem leads_createChain (handle : GivenText) (source : OutputPort) (length : Nat) :
    (createChain handle source length).Leads related := by
  induction length generalizing source with
  | zero => exact leads_edit_bind (Edit.within_ask _) fun _ => leads_pure _
  | succ length ih =>
      exact leads_edit_bind (keeping.created _ _ _) fun node =>
        (leads_bindNode handle node).bind fun _ => ih ⟨node, 0⟩

include infos

omit keeping [IsPreorder Network inner] in
theorem leads_bindGraph (handle : GivenText) (id : GraphId) :
    (bindGraph handle id).Leads related := by
  cases handle with
  | absent => exact leads_throw _
  | text handle =>
      refine leads_get.bind fun session => ?_
      split
      · exact leads_change (fun _ => rfl) fun _ => rfl
      · exact (infos.graphDropped _).bind fun _ => leads_change (fun _ => rfl) fun _ => rfl
  | unusable => exact leads_throw _

omit [IsPreorder Network inner] in
theorem leads_introduceGraph (id : GraphId) (name handle : GivenText) :
    (introduceGraph id name handle).Leads related := by
  refine (Leads.orDropGraph keeping ?_ id).bind fun _ => leads_get.bind fun _ => leads_pure _
  exact (leads_nameGraph keeping name id).bind fun _ => leads_bindGraph infos handle id

omit carries keeping [IsPreorder Network inner] in
theorem leads_dropInfo (handle : String) : (perform (.dropInfo handle)).Leads related := by
  intro session
  cases bound : session.infos.get? handle with
  | none =>
      have unbound : session.info handle = .error (.unknownHandle handle) := by
        rw [Session.info, Session.resolve, bound]
      simp only [perform, on_bind, on_get, unbound, on_ofExcept]
      exact refl_of related session
  | some id =>
      have found : session.info handle = .ok id := by
        rw [Session.info, Session.resolve, bound]
      simp only [perform, on_bind, on_get, found, on_ofExcept, on_change, on_pure]
      exact infos.infoErased session handle id bound

/-- What operations respect that edit neither edges nor boundaries is respected by the
commands of this kind. -/
theorem leads_perform {command : Command} (keeps : command.KeepsEdges) :
    (perform command).Leads related := by
  cases command with
  | create operator sources name handle =>
      exact leads_edit_bind (keeping.created _ _ _) fun _ =>
        (leads_bindNode _ _).bind fun _ => leads_pure _
  | createChain source length handle =>
      exact (leads_createChain keeping _ _ _).bind fun _ => leads_pure _
  | inspectNode node =>
      refine leads_get.bind fun session => ?_
      split
      · exact leads_pure _
      · exact leads_throw _
  | showNode node =>
      exact leads_edit_bind (Edit.within_ask _) fun _ => leads_get.bind fun _ => leads_pure _
  | renameNode node name => exact leads_edit_bind (keeping.renamed _ _) fun _ => leads_pure _
  | inspectOutput port =>
      exact leads_edit_bind (Edit.within_ask _) fun _ => leads_get.bind fun _ => leads_pure _
  | inspectInput input handle =>
      exact leads_edit_bind (Edit.within_ask _) fun _ =>
        (leads_bindInput _ _).bind fun _ => leads_get.bind fun _ => leads_pure _
  | source node index => exact leads_edit_bind (Edit.within_ask _) fun _ => leads_pure _
  | outputElementType node index =>
      exact leads_edit_bind (Edit.within_outputType _) fun _ => leads_pure _
  | outputShape node index =>
      exact leads_edit_bind (Edit.within_outputType _) fun _ => leads_pure _
  | countDistinct outputs inputs => exact leads_pure _
  | inferNode node =>
      exact leads_edit_bind (keeping.inferred _) fun _ =>
        leads_get.bind fun _ => leads_pure _
  | declareShape node shape =>
      exact leads_edit_bind (keeping.redeclared _ _ _) fun _ => leads_pure _
  | declareElementType node elementType =>
      exact leads_edit_bind (keeping.redeclared _ _ _) fun _ => leads_pure _
  | setNames port names => exact leads_edit_bind (keeping.namesSet _ _) fun _ => leads_pure _
  | addNames port names => exact leads_edit_bind (keeping.namesAdded _ _) fun _ => leads_pure _
  | names port asked => exact leads_get.bind fun _ => leads_pure _
  | dropNode handle =>
      exact leads_get.bind fun _ => (leads_ofExcept _).bind fun _ =>
        leads_change_bind (fun _ => rfl) (fun _ => rfl) fun _ => leads_pure _
  | dropInput handle =>
      exact leads_get.bind fun _ => (leads_ofExcept _).bind fun _ =>
        leads_change_bind (fun _ => rfl) (fun _ => rfl) fun _ => leads_pure _
  | sort roots => exact leads_edit_bind (Edit.within_ask _) fun _ => leads_pure _
  | createGraph results parameters sinks name handle =>
      exact leads_edit_bind (keeping.graphCreated _ _ _) fun _ =>
        leads_introduceGraph keeping infos _ _ _
  | createGraphFromOutputs outputs parameters name handle =>
      exact leads_edit_bind (keeping.createGraphFromOutputs _ _ fun _ =>
        keeping.graphCreated _ _ _) fun _ => leads_introduceGraph keeping infos _ _ _
  | dropGraph handle =>
      exact (leads_graph handle).bind fun id => (infos.graphDropped id).bind fun _ =>
        leads_change_bind (fun _ => rfl) (fun _ => rfl) fun _ => leads_pure _
  | inspectGraph handle =>
      exact (leads_graph handle).bind fun _ => leads_get.bind fun _ => leads_pure _
  | showGraph handle =>
      exact (leads_graph handle).bind fun _ => leads_get.bind fun _ => leads_pure _
  | renameGraph name handle => exact leads_onGraph _ fun _ => keeping.graphRenamed _ _
  | boundaryPlaces node handle =>
      exact (leads_graph handle).bind fun _ => leads_get.bind fun _ => leads_pure _
  | holdResult handle index nodeHandle =>
      exact (leads_graph handle).bind fun _ => leads_edit_bind (Edit.within_ask _) fun _ =>
        (leads_bindNode _ _).bind fun _ => leads_pure _
  | isMember node handle =>
      exact (leads_graph handle).bind fun _ => leads_get.bind fun _ => leads_pure _
  | holdInfo graphHandle handle =>
      exact (leads_graph graphHandle).bind fun id =>
        (infos.infoBound handle id).bind fun _ => leads_pure _
  | holdMembership node index handle =>
      refine leads_get.bind fun session => ?_
      dsimp only
      split
      · exact leads_throw _
      · exact (infos.infoBound handle _).bind fun _ => leads_pure _
  | isFresh handle =>
      exact leads_get.bind fun _ => (leads_ofExcept _).bind fun _ =>
        leads_get.bind fun _ => leads_pure _
  | knows node handle =>
      exact leads_get.bind fun _ => (leads_ofExcept _).bind fun _ =>
        leads_get.bind fun _ => leads_pure _
  | dropInfo handle => exact leads_dropInfo infos handle
  | schedule handle =>
      exact (leads_graph handle).bind fun _ =>
        leads_edit_bind (keeping.scheduled _) fun _ => leads_get.bind fun _ =>
          leads_change_bind (fun _ => rfl) (fun _ => rfl) fun _ => leads_pure _
  | isDynamic handle =>
      exact (leads_graph handle).bind fun _ =>
        leads_edit_bind (Edit.within_isDynamic (keeping.scheduled _)) fun _ => leads_pure _
  | validate handle => exact leads_onGraph _ fun _ => keeping.validate (keeping.scheduled _)
  | reshape requests handle =>
      exact leads_onGraph _ fun _ => keeping.reshape (keeping.scheduled _) _
  | boundaryPorts part handle =>
      exact (leads_graph handle).bind fun _ => leads_get.bind fun _ => leads_pure _
  | boundaryPort part selector handle =>
      exact (leads_graph handle).bind fun _ =>
        leads_edit_bind (Edit.within_ask _) fun _ => leads_pure _
  | describe handle =>
      exact (leads_graph handle).bind fun _ =>
        leads_edit_bind (Edit.within_describe (keeping.scheduled _)) fun _ => leads_pure _
  | summarize handle =>
      exact (leads_graph handle).bind fun _ =>
        leads_edit_bind (Edit.within_summarize (keeping.scheduled _)) fun _ => leads_pure _
  | inspectAll => exact leads_get.bind fun _ => leads_pure _
  | _ => exact keeps.elim

/-- What all operations respect, those included that edit edges and boundaries, is respected by
every command. -/
theorem leads_perform_of_editing (editing : Edit.EdgeEditing inner)
    (bounded : ∀ network id part change,
      inner network ((network.modifyGraph id (·.modifyBoundary part change)).touchBoundary id))
    (command : Command) : (perform command).Leads related := by
  cases command with
  | setSource input source => exact leads_edit_bind (editing.setSource _ _) fun _ => leads_pure _
  | setSources node sources => exact leads_edit_bind (editing.setSources _ _) fun _ => leads_pure _
  | replaceOutput former replacement =>
      exact leads_edit_bind (editing.replaceOutput _ _) fun _ => leads_pure _
  | replaceNode target replacement =>
      exact leads_edit_bind (editing.replaceNode _ _) fun _ => leads_pure _
  | addControlDependency dependent dependency =>
      exact leads_edit_bind (editing.addControlDependency _ _) fun _ => leads_pure _
  | removeControlDependency dependent dependency =>
      exact leads_edit_bind (editing.removeControlDependency _ _) fun _ => leads_pure _
  | clearControlDependencies dependent =>
      exact leads_edit_bind (editing.clearControlDependencies _) fun _ => leads_pure _
  | addBoundary part nodes handle =>
      exact leads_onGraph _ fun id => Edit.within_addBoundary
        (fun network change => bounded network id part change) nodes
  | removeBoundary part node handle =>
      exact leads_onGraph _ fun id => Edit.within_removeBoundary
        (fun network change => bounded network id part change) node
  | addOutput target handle nodeHandle =>
      exact (leads_graph handle).bind fun id => leads_edit_bind
        (keeping.addOutput (keeping.scheduled id)
          (fun network _ => bounded network id .results _) target) fun _ =>
        (leads_bindNode _ _).bind fun _ => leads_pure _
  | _ => exact leads_perform keeping infos trivial

end EdgeKeeping

section Within

variable {inner : Network → Network → Prop} [IsPreorder Network inner]

theorem within_bindInfo (forgets : ∀ id, (change (·.forgetInfo id)).Within inner)
    (handle : GivenText) (id : GraphId) : (bindInfo handle id).Within inner := by
  cases handle with
  | absent => exact leads_pure ()
  | text handle =>
      refine leads_get.bind fun session => Leads.bind (fun between => ?_) fun _ => ?_
      · exact refl_of inner between.network
      · split
        · exact leads_pure ()
        · exact forgets _
  | unusable => exact leads_throw _

/-- Where only networks count, it does not matter which handles hold what graphs share. -/
theorem infoKeeping_across (keeping : Edit.GraphKeeping inner) :
    InfoKeeping (Session.Across inner) := by
  have forgets (id : GraphId) : (change (·.forgetInfo id)).Within inner := by
    intro session
    rw [on_change, Session.forgetInfo]
    split
    · exact refl_of inner session.network
    · exact keeping.graphDropped session.network id
  refine ⟨fun id session => ?_, within_bindInfo forgets, fun session handle id _ => ?_⟩
  · rw [on_dropGraph, Session.dropGraph]
    split
    · cases found : session.network.graph? id with
      | none =>
          rw [retireGraph_of_absent _ found]
          exact refl_of inner session.network
      | some graph => exact keeping.graphRetired session.network id graph found
    · exact keeping.graphDropped session.network id
  · exact forgets id { session with infos := session.infos.erase handle }

end Within

end Composition

theorem on_graph (handle : String) (session : Session) :
    (graph handle).on session =
      (match session.graphs.get? handle with
        | some id => .ok id
        | none => .error (.unknownHandle handle), session) := by
  rw [graph, on_bind, on_get]
  dsimp only
  rw [on_ofExcept, Session.graph, Session.resolve]
  cases session.graphs.get? handle <;> rfl

theorem on_onGraph_of_unbound {session : Session} {handle : String}
    (unbound : session.graphs.get? handle = none) (operation : GraphId → Edit Unit) :
    (onGraph handle operation).on session = (.error (.unknownHandle handle), session) := by
  rw [onGraph, on_bind, on_graph, unbound]

/-- An operation on the graph of a handle answers if it is accepted. -/
theorem on_onGraph {session : Session} {handle : String} {id : GraphId}
    (bound : session.graphs.get? handle = some id) (operation : GraphId → Edit Unit) :
    (onGraph handle operation).on session =
      match (operation id).on session.network with
      | (.ok _, network) => (.ok .done, { session with network })
      | (.error error, network) => (.error (.refused error), { session with network }) := by
  rw [onGraph, on_bind, on_graph, bound]
  dsimp only
  rw [on_bind, on_edit]
  rcases (operation id).on session.network with ⟨error | _, network⟩ <;> rfl

theorem follows_perform (command : Command) : (perform command).Follows := by
  cases command with
  | setSource input source =>
      exact leads_edit_bind (Edit.follows_setSource _ _) fun _ => leads_pure _
  | setSources node sources =>
      exact leads_edit_bind (Edit.follows_setSources _ _) fun _ => leads_pure _
  | replaceOutput former replacement =>
      exact leads_edit_bind (Edit.follows_replaceOutput _ _) fun _ => leads_pure _
  | replaceNode target replacement =>
      exact leads_edit_bind (Edit.follows_replaceNode _ _) fun _ => leads_pure _
  | addControlDependency dependent dependency =>
      exact leads_edit_bind (Edit.follows_addControlDependency _ _) fun _ => leads_pure _
  | removeControlDependency dependent dependency =>
      exact leads_edit_bind (Edit.follows_removeControlDependency _ _) fun _ => leads_pure _
  | clearControlDependencies dependent =>
      exact leads_edit_bind (Edit.follows_clearControlDependencies _) fun _ => leads_pure _
  | addBoundary part nodes handle =>
      exact leads_onGraph _ fun _ => Edit.follows_addBoundary _ _ _
  | removeBoundary part node handle =>
      exact leads_onGraph _ fun _ => Edit.follows_removeBoundary _ _ _
  | addOutput target handle nodeHandle =>
      exact (leads_graph handle).bind fun _ =>
        leads_edit_bind (Edit.follows_addOutput _ _) fun _ =>
          (leads_bindNode _ _).bind fun _ => leads_pure _
  | _ =>
      have keeping := Edit.graphKeeping_moves
      exact leads_perform keeping.toEdgeKeeping (infoKeeping_across keeping) trivial

end Action

namespace Session

/-- A command that is answered, with its answer and the session afterwards. -/
theorem step_eq_of_ok {session : Session} {command : Command} {answer : Answer}
    (answers : (session.step command).1 = .ok answer) :
    session.step command = (.ok answer, (session.step command).2) :=
  Prod.ext answers rfl

theorem step_eq_of_error {session : Session} {command : Command} {fault : Fault}
    (refused : (session.step command).1 = .error fault) :
    session.step command = (.error fault, (session.step command).2) :=
  Prod.ext refused rfl

theorem graph?_step (session : Session) (command : Command) (id : GraphId) :
    (session.step command).2.network.graph? id =
      ((Action.perform command).on session.clearEvents).2.network.graph? id :=
  graph?_release _ _ id

theorem moves_step (session : Session) (command : Command) :
    Moves session.network (session.step command).2.network :=
  .tail (.head .logged (Action.follows_perform command session.clearEvents)) .released

theorem moves_run (session : Session) (commands : List Command) :
    Moves session.network (session.run commands).network := by
  induction commands generalizing session with
  | nil => exact .refl
  | cons command commands ih => exact (moves_step session command).trans (ih _)

theorem kept_run {session : Session} (kept : session.network.Kept session.held)
    (commands : List Command) :
    (session.run commands).network.Kept (session.run commands).held := by
  induction commands generalizing session with
  | nil => exact kept
  | cons command commands ih => exact ih (kept_release _ _)

theorem Reachable.step {session : Session} (reachable : session.Reachable) (command : Command) :
    (session.step command).2.Reachable := by
  obtain ⟨commands, rfl⟩ := reachable
  exact ⟨commands ++ [command], by rw [run, run, List.foldl_append]; rfl⟩

theorem Reachable.run {session : Session} (reachable : session.Reachable)
    (commands : List Command) : (session.run commands).Reachable := by
  obtain ⟨earlier, rfl⟩ := reachable
  exact ⟨earlier ++ commands, by rw [Session.run, Session.run, Session.run, List.foldl_append]⟩

/-- What is alive between commands is held. -/
theorem Reachable.kept {session : Session} (reachable : session.Reachable) :
    session.network.Kept session.held := by
  obtain ⟨commands, rfl⟩ := reachable
  have none : Network.empty.nodes.ids = [] := by decide
  have sublist := Network.empty.survivors_sublist empty.held
  rw [none, List.sublist_nil] at sublist
  have kept : empty.network.Kept empty.held := sublist.trans none.symm
  exact kept_run kept commands

theorem Reachable.moves {session : Session} (reachable : session.Reachable) :
    Moves Network.empty session.network := by
  obtain ⟨commands, rfl⟩ := reachable
  exact moves_run empty commands

end Session
end TensorGraph
