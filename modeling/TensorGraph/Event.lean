import TensorGraph.GraphError

/-!
# Events

What a network reports while it works, with a level and named fields: nodes
joining and leaving the schedule of a graph, schedules becoming stale and being
computed anew, and the course of larger operations.
-/

namespace TensorGraph

/-- How grave an event is. -/
inductive Level where
  | trace
  | debug
  | warn
  deriving DecidableEq

def Level.text : Level → String
  | trace => "TRACE"
  | debug => "DEBUG"
  | warn => "WARN"

/-- Something that a network reports; graphs are named by their names unless an
id is given. -/
inductive Event where
  /-- An edit of the node made the schedule of the graph stale. -/
  | scheduleStale (node graph : Nat)
  /-- A change of its boundary made the schedule of the graph stale. -/
  | boundaryChanged (graph : String)
  /-- The node is new in the schedule of the graph. -/
  | nodeJoined (graph : String) (node : Nat)
  /-- The node is no longer in the schedule of the graph. -/
  | nodeLeft (graph : String) (node : Nat)
  /-- The graph has a new schedule of the given length. -/
  | scheduled (graph : String) (count : Nat)
  | graphCreated (graph : String) (results sinks parameters : Nat)
  | outputAdded (graph : String) (port : PortLabel)
  | reshaped (graph : String) (parameters : Nat)
  | reshapeFailed (graph : String) (error : GraphError)
  | restoreFailed (graph : String) (error : GraphError)
  deriving DecidableEq

/-- The value of a field of an event. -/
inductive FieldValue where
  | number (value : Nat)
  | text (value : String)
  deriving DecidableEq

namespace Event

def level : Event → Level
  | scheduleStale _ _ | boundaryChanged _ | nodeJoined _ _ | nodeLeft _ _ => .trace
  | scheduled _ _ | graphCreated _ _ _ _ | outputAdded _ _ | reshaped _ _ => .debug
  | reshapeFailed _ _ | restoreFailed _ _ => .warn

def message : Event → String
  | scheduleStale _ _ => "拓扑缓存失效"
  | boundaryChanged _ => "图边界改变，拓扑缓存失效"
  | nodeJoined _ _ => "节点加入图"
  | nodeLeft _ _ => "节点离开图"
  | scheduled _ _ => "重新计算拓扑序"
  | graphCreated _ _ _ _ => "创建图"
  | outputAdded _ _ => "追加图输出"
  | reshaped _ _ => "reshape完成"
  | reshapeFailed _ _ => "reshape失败，恢复原形状"
  | restoreFailed _ _ => "恢复原形状后重新推导失败"

/-- To what it happened. -/
def fields : Event → List (String × FieldValue)
  | scheduleStale node graph => [("node", .number node), ("shared_info", .number graph)]
  | boundaryChanged graph => [("graph", .text graph)]
  | nodeJoined graph node | nodeLeft graph node =>
      [("graph", .text graph), ("node", .number node)]
  | scheduled graph count => [("graph", .text graph), ("node_count", .number count)]
  | graphCreated graph results sinks parameters =>
      [("graph", .text graph), ("results", .number results), ("sinks", .number sinks),
        ("parameters", .number parameters)]
  | outputAdded graph port => [("graph", .text graph), ("port", .text port.text)]
  | reshaped graph parameters =>
      [("graph", .text graph), ("parameters", .number parameters)]
  | reshapeFailed graph error | restoreFailed graph error =>
      [("graph", .text graph), ("error", .text error.message)]

end Event
end TensorGraph
