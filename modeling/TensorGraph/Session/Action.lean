import TensorGraph.Session

/-!
# Actions

Operations on a session, which may end in a fault.  An operation on the network
is one on the session that holds it.
-/

namespace TensorGraph

/-- An operation on a session. -/
abbrev Action := ExceptT Fault (StateM Session)

namespace Action

variable {α β : Type}

/-- The outcome of an operation on a session, and the session afterwards. -/
def on (action : Action α) (session : Session) : Except Fault α × Session :=
  action.run.run session

/-- Apply a change that is never refused. -/
def change (update : Session → Session) : Action Unit :=
  modify update

/-- An answer as an operation without effect. -/
def ofExcept : Except Fault α → Action α
  | .ok value => pure value
  | .error fault => throw fault

/-- An operation on the network of the session. -/
def edit (operation : Edit α) : Action α := fun session =>
  let (outcome, network) := operation.on session.network
  (outcome.mapError .refused, { session with network })

@[simp] theorem on_pure (value : α) (session : Session) :
    (pure value : Action α).on session = (.ok value, session) :=
  rfl

@[simp] theorem on_throw (fault : Fault) (session : Session) :
    (throw fault : Action α).on session = (.error fault, session) :=
  rfl

@[simp] theorem on_get (session : Session) :
    (get : Action Session).on session = (.ok session, session) :=
  rfl

@[simp] theorem on_change (update : Session → Session) (session : Session) :
    (change update).on session = (.ok (), update session) :=
  rfl

@[simp] theorem on_ofExcept (outcome : Except Fault α) (session : Session) :
    (ofExcept outcome).on session = (outcome, session) := by
  cases outcome <;> rfl

@[simp] theorem on_edit (operation : Edit α) (session : Session) :
    (edit operation).on session =
      ((operation.on session.network).1.mapError .refused,
        { session with network := (operation.on session.network).2 }) :=
  rfl

@[simp] theorem on_bind (action : Action α) (next : α → Action β) (session : Session) :
    (action >>= next).on session =
      match action.on session with
      | (.ok value, after) => (next value).on after
      | (.error fault, after) => (.error fault, after) := by
  change ExceptT.bindCont next (action.on session).1 (action.on session).2 = _
  rcases action.on session with ⟨outcome, after⟩
  cases outcome <;> rfl

/-- Give a node to a handle, if one is given. -/
def bindNode (handle : GivenText) (node : NodeId) : Action Unit :=
  match handle with
  | .absent => pure ()
  | .text handle => change fun session =>
      { session with nodes := session.nodes.insert handle node }
  | .unusable => throw .unusableHandle

def bindInput (handle : GivenText) (input : InputPort) : Action Unit :=
  match handle with
  | .absent => pure ()
  | .text handle => change fun session =>
      { session with inputs := session.inputs.insert handle input }
  | .unusable => throw .unusableHandle

def dropGraph (id : GraphId) : Action Unit :=
  change (·.dropGraph id)

/-- Give what a graph shares with its nodes to a handle, if one is given. -/
def bindInfo (handle : GivenText) (id : GraphId) : Action Unit := do
  match handle with
  | .absent => pure ()
  | .text handle =>
      let former := (← get).infos.get? handle
      change fun session => { session with infos := session.infos.insert handle id }
      match former with
      | none => pure ()
      | some former => change (·.forgetInfo former)
  | .unusable => throw .unusableHandle

/-- Call a graph by a name, if one is given. -/
def nameGraph (name : GivenText) (id : GraphId) : Action Unit :=
  match name with
  | .absent => pure ()
  | .text name => edit (Edit.renameGraph id name)
  | .unusable => throw .unusableName

/-- Give a graph to a handle, which must be given; the graph that it had is
dropped. -/
def bindGraph (handle : GivenText) (id : GraphId) : Action Unit := do
  match handle with
  | .text handle =>
      match (← get).graphs.get? handle with
      | none => pure ()
      | some former => dropGraph former
      change fun session => { session with graphs := session.graphs.insert handle id }
  | _ => throw .unusableHandle

/-- Carry out an operation on a new graph, which is removed if there is a fault; no
handle holds anything of it by then. -/
def orDropGraph (id : GraphId) (action : Action Unit) : Action Unit :=
  tryCatch action fun fault => do
    change fun session => { session with network := session.network.dropGraph id }
    throw fault

theorem on_dropGraph (id : GraphId) (session : Session) :
    (dropGraph id).on session = (.ok (), session.dropGraph id) :=
  rfl

@[simp] theorem on_orDropGraph (id : GraphId) (action : Action Unit) (session : Session) :
    (orDropGraph id action).on session =
      match action.on session with
      | (.ok (), after) => (.ok (), after)
      | (.error fault, after) =>
          (.error fault, { after with network := after.network.dropGraph id }) := by
  simp only [orDropGraph, on, ExceptT.run, StateT.run, tryCatch, tryCatchThe,
    MonadExceptOf.tryCatch, ExceptT.tryCatch, ExceptT.mk, bind, StateT.bind]
  rcases action session with ⟨outcome, after⟩
  cases outcome <;> rfl

def graph (handle : String) : Action GraphId := do
  ofExcept ((← get).graph handle)

end Action
end TensorGraph
