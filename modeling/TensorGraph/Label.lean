import TensorGraph.Text.Decimal

/-!
# Labels

How messages name nodes and ports: by id, name and kind of operator as they were
when the message arose.
-/

namespace TensorGraph

/-- A node as messages name it. -/
structure NodeLabel where
  id : Nat
  name : String
  typeName : String
  deriving DecidableEq

/-- The end of an edge that a port stands at. -/
inductive PortSide where
  | output
  | input
  deriving DecidableEq

/-- A port as messages name it. -/
structure PortLabel where
  node : NodeLabel
  side : PortSide
  index : Nat
  deriving DecidableEq

/-- The spelling of a node in messages. -/
def NodeLabel.text (label : NodeLabel) : String :=
  "节点[id=" ++ Text.Decimal.text label.id ++ ", name=" ++ label.name ++
    ", type=" ++ label.typeName ++ "]"

def PortSide.text : PortSide → String
  | output => "输出"
  | input => "输入"

def PortLabel.text (label : PortLabel) : String :=
  label.node.text ++ "的" ++ label.side.text ++ "#" ++ Text.Decimal.text label.index

end TensorGraph
