/-!
# Roles

What a node does for a graph that contains it: parameters feed a graph, results
and sinks end it, and every other node is an operation inside it.
-/

namespace TensorGraph

/-- What a node does for a graph. -/
inductive Role where
  | parameter
  | result
  | sink
  | operation
  deriving DecidableEq, Inhabited

namespace Role

/-- The spelling used in messages and descriptions. -/
def tag : Role → String
  | parameter => "Parameter"
  | result => "Result"
  | sink => "Sink"
  | operation => "Op"

/-- Every role, in the order of declaration. -/
def all : List Role :=
  [parameter, result, sink, operation]

def ofTag? (tag : String) : Option Role :=
  all.find? (·.tag = tag)

theorem ofTag?_tag (role : Role) : ofTag? role.tag = some role := by
  cases role <;> decide

end Role
end TensorGraph
