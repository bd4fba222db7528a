import TensorGraph.Graph.Description
import TensorGraph.Graph.Validation
import TensorGraph.Network.Control
import TensorGraph.Session.Table

/-!
# Sessions

A network together with the handles under which its user holds nodes, inputs,
graphs, and what graphs share with their nodes.  A handle holds what it names; what
no handle holds, directly or through the network, is released after each command.
-/

namespace TensorGraph

/-- A schedule as an object of its own: the graph for which it was computed and
the number of the computation. -/
structure ScheduleStamp where
  graph : GraphId
  revision : Nat
  deriving DecidableEq

/-- A network, the handles of its user, and for each graph handle the schedule
that was last answered. -/
structure Session where
  network : Network
  nodes : Table NodeId
  inputs : Table InputPort
  graphs : Table GraphId
  /-- The graphs of which it is held what they share with their nodes. -/
  infos : Table GraphId
  answered : Table ScheduleStamp

/-- A text that a command may give.  It is looked at only when it is used, so a
command that gives something else instead has taken effect by then. -/
inductive GivenText where
  | absent
  | text (value : String)
  /-- What is given is no text. -/
  | unusable
  deriving DecidableEq

/-- Why a command has no answer. -/
inductive Fault where
  /-- No such handle is bound. -/
  | unknownHandle (handle : String)
  /-- What is given for a new handle is no text, or none is given where one is
  needed. -/
  | unusableHandle
  /-- What is given for a name is no text. -/
  | unusableName
  /-- The network refuses the operation. -/
  | refused (error : GraphError)
  deriving DecidableEq

namespace Session

def empty : Session where
  network := .empty
  nodes := .empty
  inputs := .empty
  graphs := .empty
  infos := .empty
  answered := .empty

/-- The nodes that handles hold. -/
def held (session : Session) : List NodeId :=
  session.nodes.values ++ session.inputs.values.map (·.node)

/-- Release what nothing holds. -/
def release (session : Session) : Session :=
  { session with network := session.network.release session.held }

/-- Drop a graph, except for what it shares with its nodes if a handle holds that. -/
def dropGraph (session : Session) (id : GraphId) : Session :=
  if id ∈ session.infos.values then
    { session with network := session.network.retireGraph id }
  else { session with network := session.network.dropGraph id }

/-- Forget what a dropped graph shared with its nodes, unless a handle holds it. -/
def forgetInfo (session : Session) (id : GraphId) : Session :=
  if (session.network.graph? id).isSome ∨ id ∈ session.infos.values then session
  else { session with network := session.network.dropGraph id }

/-- Forget the events reported so far. -/
def clearEvents (session : Session) : Session :=
  { session with network := { session.network with events := #[] } }

/-- The value of a handle in one of the tables. -/
def resolve {α : Type} (table : Table α) (handle : String) : Except Fault α :=
  match table.get? handle with
  | some value => .ok value
  | none => .error (.unknownHandle handle)

def node (session : Session) (handle : String) : Except Fault NodeId :=
  resolve session.nodes handle

def graph (session : Session) (handle : String) : Except Fault GraphId :=
  resolve session.graphs handle

def info (session : Session) (handle : String) : Except Fault GraphId :=
  resolve session.infos handle

def input (session : Session) (handle : String) : Except Fault InputPort :=
  resolve session.inputs handle

/-- An output of the node of a handle. -/
def outputOf (session : Session) (handle : String) (index : Nat) : Except Fault OutputPort := do
  let node ← session.node handle
  let count := session.network.outputCount node
  if index < count then return ⟨node, index⟩
  else throw (.refused (.indexOutOfRange index count))

/-- An input of the node of a handle. -/
def inputOf (session : Session) (handle : String) (index : Nat) : Except Fault InputPort := do
  let node ← session.node handle
  let count := (session.network.sources node).length
  if index < count then return ⟨node, index⟩
  else throw (.refused (.indexOutOfRange index count))

end Session

end TensorGraph
