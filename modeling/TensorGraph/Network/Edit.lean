import TensorGraph.Network

/-!
# Edits

Operations that change a network and may be refused.  A refused operation leaves
the network as it was when it was refused, so that what it had done by then
remains.
-/

namespace TensorGraph

/-- An operation on a network, which may be refused after a part of its effect
has taken place. -/
abbrev Edit := ExceptT GraphError (StateM Network)

namespace Edit

variable {α β : Type}

/-- The outcome of an operation on a network, and the network afterwards. -/
def on (edit : Edit α) (network : Network) : Except GraphError α × Network :=
  edit.run.run network

/-- Apply a change that is never refused. -/
def change (update : Network → Network) : Edit Unit :=
  modify update

/-- An answer as an operation without effect. -/
def ofExcept : Except GraphError α → Edit α
  | .ok value => pure value
  | .error error => throw error

/-- Ask the network a question that may be refused. -/
def ask (question : Network → Except GraphError α) : Edit α := do
  ofExcept (question (← get))

def report (event : Event) : Edit Unit :=
  change (·.report event)

/-- Carry out an operation, and another one if it is refused, which then decides
the outcome. -/
def orElse (edit : Edit α) (onRefusal : GraphError → Edit α) : Edit α :=
  tryCatch edit onRefusal

/-- Undo an earlier change if an operation is refused. -/
def undoing (edit : Edit α) (undo : Network → Network) : Edit α :=
  edit.orElse fun error => do
    change undo
    throw error

@[simp] theorem on_pure (value : α) (network : Network) :
    (pure value : Edit α).on network = (.ok value, network) :=
  rfl

@[simp] theorem on_throw (error : GraphError) (network : Network) :
    (throw error : Edit α).on network = (.error error, network) :=
  rfl

@[simp] theorem on_get (network : Network) :
    (get : Edit Network).on network = (.ok network, network) :=
  rfl

@[simp] theorem on_change (update : Network → Network) (network : Network) :
    (change update).on network = (.ok (), update network) :=
  rfl

@[simp] theorem on_ask (question : Network → Except GraphError α) (network : Network) :
    (ask question).on network = (question network, network) := by
  simp only [ask]
  change (ofExcept (question network)).on network = _
  cases question network <;> rfl

@[simp] theorem on_bind (edit : Edit α) (next : α → Edit β) (network : Network) :
    (edit >>= next).on network =
      match edit.on network with
      | (.ok value, after) => (next value).on after
      | (.error error, after) => (.error error, after) := by
  change ExceptT.bindCont next (edit.on network).1 (edit.on network).2 = _
  rcases edit.on network with ⟨outcome, after⟩
  cases outcome <;> rfl

@[simp] theorem on_orElse (edit : Edit α) (onRefusal : GraphError → Edit α)
    (network : Network) :
    (edit.orElse onRefusal).on network =
      match edit.on network with
      | (.ok value, after) => (.ok value, after)
      | (.error error, after) => (onRefusal error).on after := by
  simp only [orElse, on, ExceptT.run, StateT.run, tryCatch, tryCatchThe, MonadExceptOf.tryCatch,
    ExceptT.tryCatch, ExceptT.mk, bind, StateT.bind]
  rcases edit network with ⟨outcome, after⟩
  cases outcome <;> rfl

@[simp] theorem on_undoing (edit : Edit α) (undo : Network → Network) (network : Network) :
    (edit.undoing undo).on network =
      match edit.on network with
      | (.ok value, after) => (.ok value, after)
      | (.error error, after) => (.error error, undo after) := by
  rw [undoing, on_orElse]
  rcases edit.on network with ⟨error | value, after⟩ <;> rfl

/-- A live node. -/
def node (id : NodeId) : Edit Node :=
  ask fun network =>
    match network.node? id with
    | some node => .ok node
    | none => .error (.nodeNotFound id)

/-- The output exists. -/
def checkPort (port : OutputPort) : Edit Unit :=
  ask fun network =>
    if port.index < network.outputCount port.node then .ok ()
    else .error (.indexOutOfRange port.index (network.outputCount port.node))

/-- The type of an output that exists. -/
def outputType (port : OutputPort) : Edit TensorType := do
  checkPort port
  return (← get).tensorType port

/-- The output that an input reads. -/
def source (input : InputPort) : Edit OutputPort :=
  ask fun network =>
    match network.source? input with
    | some source => .ok source
    | none => .error (.indexOutOfRange input.index (network.sources input.node).length)

end Edit
end TensorGraph
