import TensorGraph.Network.Edit

/-!
# Names of tensors

A result gives out the tensor that it reads, so the names of its output are those
of that tensor.  Within a graph, a name belongs to one tensor at most: naming a
tensor is refused if a graph that its node knows has the name on another one.  A
graph that was dropped counts as well while what it shared with its nodes is still
referred to.
-/

namespace TensorGraph

/-- Sets of names as ascending lists. -/
abbrev NameSet := List String

namespace NameSet

def insert (name : String) : NameSet → NameSet
  | [] => [name]
  | first :: rest =>
      if name < first then name :: first :: rest
      else if name = first then first :: rest
      else first :: insert name rest

/-- The set of the given names. -/
def ofList (names : List String) : NameSet :=
  names.foldl (fun set name => insert name set) []

def union (left right : NameSet) : NameSet :=
  right.foldl (fun set name => insert name set) left

end NameSet

namespace Network

/-- The output that a result gives out, if the port belongs to a result that
reads one. -/
def aliased? (network : Network) (port : OutputPort) : Option OutputPort :=
  if network.isResult port.node then network.source? ⟨port.node, 0⟩ else none

/-- Follow results to the outputs that they give out, passing each of the
remaining nodes once at most. -/
def ownerAmong (network : Network) (remaining : List NodeId) (port : OutputPort) : OutputPort :=
  match network.aliased? port with
  | none => port
  | some source =>
      if port.node ∈ remaining then network.ownerAmong (remaining.erase port.node) source
      else port
termination_by remaining.length
decreasing_by
  have shorter := List.length_erase_of_mem ‹port.node ∈ remaining›
  have := List.length_pos_of_mem ‹port.node ∈ remaining›
  omega

/-- The output that carries the names of a tensor: that of the first node on the
way through results which is no result.  On a cycle of results it is the port
at which the cycle was entered. -/
def tensorOwner (network : Network) (port : OutputPort) : OutputPort :=
  if network.isResult port.node then network.ownerAmong network.nodes.ids port else port

/-- The names that an output itself carries. -/
def ownNames (network : Network) (port : OutputPort) : NameSet :=
  (network.tensor? port).elim [] (·.names)

/-- The names of the tensor that an output gives out. -/
def tensorNames (network : Network) (port : OutputPort) : NameSet :=
  network.ownNames (network.tensorOwner port)

/-- The tensor that an output gives out has the name. -/
def hasName (network : Network) (port : OutputPort) (name : String) : Bool :=
  name ∈ network.tensorNames port

/-- The outputs of nodes that are no results. -/
def ownerPorts (network : Network) (nodes : List NodeId) : List OutputPort :=
  (nodes.filter (!network.isResult ·)).flatMap network.outputPorts

/-- The given nodes that are alive. -/
def living (network : Network) (nodes : List NodeId) : List NodeId :=
  nodes.filter network.nodes.contains

/-- The members of a graph: its roster while the schedule is fresh, and what can
be reached from its roots otherwise. -/
def members (network : Network) (info : GraphInfo) : Except GraphError (List NodeId) :=
  if info.isFresh then .ok (network.living info.roster)
  else network.order (network.living info.roots)

/-- The first of the outputs that carries one of the names, with that name. -/
def holder? (network : Network) (names : NameSet) (ports : List OutputPort) :
    Option (String × OutputPort) :=
  ports.findSome? fun port =>
    (names.find? (· ∈ network.ownNames port)).map fun name => (name, port)

/-- No other tensor of a graph that contains the owner has one of the names. -/
def checkNamesWithin (network : Network) (owner : OutputPort) (names : NameSet)
    (graph : GraphId) : Except GraphError Unit := do
  let members ← network.members (network.info graph)
  if owner.node ∈ members then
    match network.holder? names ((network.ownerPorts members).filter (· ≠ owner)) with
    | some (name, port) => throw (.nameConflict (.taken name (network.outputLabel port)))
    | none => return ()

/-- No other tensor of the graphs that know the owner has one of the names. -/
def checkNames (network : Network) (owner : OutputPort) (names : NameSet) :
    Except GraphError Unit :=
  if names = [] then .ok ()
  else (network.memberships owner.node).forM (network.checkNamesWithin owner names)

end Network

namespace Edit

/-- Give a tensor the names that `update` makes of its own, of which the given
ones must be free. -/
def updateNames (port : OutputPort) (given : NameSet) (update : NameSet → NameSet) :
    Edit Unit := do
  checkPort port
  let owner := (← get).tensorOwner port
  ask (·.checkNames owner given)
  change (·.modifyTensor owner fun tensor => { tensor with names := update tensor.names })

/-- Give a tensor the given names and no others. -/
def setNames (port : OutputPort) (names : List String) : Edit Unit :=
  updateNames port (.ofList names) fun _ => .ofList names

def addNames (port : OutputPort) (names : List String) : Edit Unit :=
  updateNames port (.ofList names) (·.union (.ofList names))

end Edit
end TensorGraph
