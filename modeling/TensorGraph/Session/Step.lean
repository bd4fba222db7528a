import TensorGraph.Session.Action
import TensorGraph.Session.Command

/-!
# Steps

How a session carries out a command: the operation on the network, the handles
that it binds or frees, the answer, and at last the release of what nothing holds
any more.  A session is reachable if some commands lead to it from the empty
one.
-/

namespace TensorGraph

namespace Action

/-- Create rectifiers, each reading the one before and taking over the handle; the
last one, or the node of the source if there is none. -/
def createChain (handle : GivenText) (source : OutputPort) : Nat → Action NodeId
  | 0 => do
      edit (Edit.checkPort source)
      return source.node
  | length + 1 => do
      let node ← edit (Edit.create .relu [source] none)
      bindNode handle node
      createChain handle ⟨node, 0⟩ length

/-- Give a name to a new graph if one is given, hold it, and tell its state. -/
def introduceGraph (id : GraphId) (name handle : GivenText) : Action Answer := do
  orDropGraph id do
    nameGraph name id
    bindGraph handle id
  return .graphReport ((← get).network.reportGraph id)

/-- Carry out an operation on a graph that has no answer of its own. -/
def onGraph (handle : String) (operation : GraphId → Edit Unit) : Action Answer := do
  edit (operation (← graph handle))
  return .done

/-- The schedule of a graph, which is the same as before if the last one answered
under the handle is still stored. -/
def schedule (handle : String) : Action Answer := do
  let id ← graph handle
  let ids ← edit (Edit.schedule id)
  let session ← get
  let stamp : ScheduleStamp := ⟨id, (session.network.graph id).revision⟩
  change fun session => { session with answered := session.answered.insert handle stamp }
  return .schedule ids (session.answered.get? handle = some stamp)

/-- Carry out a command. -/
def perform : Command → Action Answer
  | .create operator sources name handle => do
      let node ← edit (Edit.create operator sources name)
      bindNode handle node
      return .node node
  | .createChain source length handle => return .node (← createChain handle source length)
  | .inspectNode node => do
      match (← get).reportNode? node with
      | some report => return .nodeReport report
      | none => throw (.refused (.nodeNotFound node))
  | .showNode node => do
      let _ ← edit (Edit.node node)
      return .texts ((← get).network.showNode node)
  | .renameNode node name => do
      edit (Edit.rename node name)
      return .done
  | .inspectOutput port => do
      edit (Edit.checkPort port)
      return .tensorReport ((← get).network.reportTensor port)
  | .inspectInput input handle => do
      let source ← edit (Edit.source input)
      bindInput handle input
      return .connection source ((← get).network.tensorType source)
  | .source node index => return .port (← edit (Edit.source ⟨node, index⟩))
  | .outputElementType node index =>
      return .elementType (← edit (Edit.outputType ⟨node, index⟩)).elementType
  | .outputShape node index => return .shape (← edit (Edit.outputType ⟨node, index⟩)).shape
  | .countDistinct outputs inputs =>
      return .counts outputs.eraseDups.length inputs.eraseDups.length
  | .setSource input source => do
      edit (Edit.setSource input source)
      return .done
  | .setSources node sources => do
      edit (Edit.setSources node sources)
      return .done
  | .replaceOutput former replacement => do
      edit (Edit.replaceOutput former replacement)
      return .done
  | .replaceNode target replacement => do
      edit (Edit.replaceNode target replacement)
      return .done
  | .addControlDependency dependent dependency => do
      edit (Edit.addControlDependency dependent dependency)
      return .done
  | .removeControlDependency dependent dependency =>
      return .truth (← edit (Edit.removeControlDependency dependent dependency))
  | .clearControlDependencies dependent => do
      edit (Edit.clearControlDependencies dependent)
      return .done
  | .inferNode node => do
      edit (Edit.inferNode node)
      return .tensorReports ((← get).network.reportOutputs node)
  | .declareShape node shape => do
      edit (Edit.declareShape node shape)
      return .done
  | .declareElementType node elementType => do
      edit (Edit.declareElementType node elementType)
      return .done
  | .setNames port names => do
      edit (Edit.setNames port names)
      return .done
  | .addNames port names => do
      edit (Edit.addNames port names)
      return .done
  | .names port asked => do
      let network := (← get).network
      return .naming (network.tensorOwner port) (network.tensorNames port)
        (asked.map (network.hasName port))
  | .dropNode handle => do
      let _ ← ofExcept ((← get).node handle)
      change fun session => { session with nodes := session.nodes.erase handle }
      return .done
  | .dropInput handle => do
      let _ ← ofExcept ((← get).input handle)
      change fun session => { session with inputs := session.inputs.erase handle }
      return .done
  | .sort roots => return .nodes (← edit (Edit.ask (·.order roots)))
  | .createGraph results parameters sinks name handle => do
      introduceGraph (← edit (Edit.createGraph results sinks parameters)) name handle
  | .createGraphFromOutputs outputs parameters name handle => do
      introduceGraph (← edit (Edit.createGraphFromOutputs outputs parameters)) name handle
  | .dropGraph handle => do
      dropGraph (← graph handle)
      change fun session =>
        { session with
          graphs := session.graphs.erase handle
          answered := session.answered.erase handle }
      return .done
  | .inspectGraph handle => do
      let id ← graph handle
      return .graphReport ((← get).network.reportGraph id)
  | .showGraph handle => do
      let id ← graph handle
      return .text ((← get).network.graph id).recordText
  | .renameGraph name handle => onGraph handle (Edit.renameGraph · name)
  | .addBoundary part nodes handle => onGraph handle (Edit.addBoundary part · nodes)
  | .removeBoundary part node handle => onGraph handle (Edit.removeBoundary part · node)
  | .boundaryPlaces node handle => do
      let id ← graph handle
      let graph := (← get).network.graph id
      return .places (graph.parameters.idxOf? node) (graph.results.idxOf? node)
  | .holdResult handle index nodeHandle => do
      let id ← graph handle
      let port ← edit (Edit.ask fun network =>
        network.select .results (network.graph id) (.place index))
      bindNode nodeHandle port.node
      return .node port.node
  | .isMember node handle => do
      let id ← graph handle
      return .truth (id ∈ (← get).network.memberships node)
  | .holdInfo graphHandle handle => do
      let id ← graph graphHandle
      bindInfo handle id
      return .done
  | .holdMembership node index handle => do
      let known := (← get).network.memberships node
      match known[index]? with
      | none => throw (.refused (.indexOutOfRange index known.length))
      | some id => do
          bindInfo handle id
          return .done
  | .isFresh handle => do
      let id ← ofExcept ((← get).info handle)
      return .truth ((← get).network.info id).isFresh
  | .knows node handle => do
      let id ← ofExcept ((← get).info handle)
      return .truth (id ∈ (← get).network.memberships node)
  | .dropInfo handle => do
      let id ← ofExcept ((← get).info handle)
      change fun session => { session with infos := session.infos.erase handle }
      change (·.forgetInfo id)
      return .done
  | .schedule handle => schedule handle
  | .isDynamic handle => return .truth (← edit (Edit.isDynamic (← graph handle)))
  | .validate handle => onGraph handle Edit.validate
  | .reshape requests handle => onGraph handle (Edit.reshape · requests)
  | .boundaryPorts part handle => do
      let id ← graph handle
      return .ports ((((← get).network.graph id).boundary part).map Network.firstOutput)
  | .boundaryPort part selector handle => do
      let id ← graph handle
      return .port (← edit (Edit.ask fun network =>
        network.select part (network.graph id) selector))
  | .addOutput target handle nodeHandle => do
      let port ← edit (Edit.addOutput (← graph handle) target)
      bindNode nodeHandle port.node
      return .port port
  | .describe handle => do
      let description ← edit (Edit.describe (← graph handle))
      return .text description.toJson.indented
  | .summarize handle => return .text (← edit (Edit.summarize (← graph handle)))
  | .inspectAll => do
      let session ← get
      return .all
        ⟨session.nodes.entries.filterMap fun (handle, id) =>
          (session.reportNode? id).map fun report => (handle, report)⟩
        (session.graphs.map session.network.reportGraph)

end Action

namespace Session

/-- Carry out a command and release what nothing holds afterwards.  The events of
the session are then those of the command. -/
def step (session : Session) (command : Command) : Except Fault Answer × Session :=
  let (answer, after) := (Action.perform command).on session.clearEvents
  (answer, after.release)

/-- Carry out commands one after the other. -/
def run (session : Session) (commands : List Command) : Session :=
  commands.foldl (fun session command => (session.step command).2) session

/-- Sessions that some commands lead to. -/
def Reachable (session : Session) : Prop :=
  ∃ commands, session = empty.run commands

end Session
end TensorGraph
