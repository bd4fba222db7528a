import TensorGraph.Network.Wiring

/-!
# Control edges

Ordering a node after another without reading it.  Every control edge is known
at both ends and stands there once; no node is ordered after itself.

Putting one node into the place of another redirects edges of both kinds: the
consumers of each output read the output of the replacement with the same index,
the nodes that were ordered after the target are ordered after the replacement, and
the replacement is ordered after what the target is ordered after.  Edges of the
replacement's own to the target stay.
-/

namespace TensorGraph
namespace Network

/-- Order a node after another. -/
def addControl (network : Network) (dependent dependency : NodeId) : Network :=
  let forward := network.modifyNode dependent fun node =>
    { node with controlDependencies := node.controlDependencies ++ [dependency] }
  let backward := forward.modifyNode dependency fun node =>
    { node with controlDependents := node.controlDependents ++ [dependent] }
  backward.touch [dependent, dependency]

/-- Take a node off the nodes that are ordered after another. -/
def forgetDependent (dependent : NodeId) (network : Network) (dependency : NodeId) : Network :=
  network.modifyNode dependency fun node =>
    { node with controlDependents := node.controlDependents.filter (· ≠ dependent) }

def removeControl (network : Network) (dependent dependency : NodeId) : Network :=
  let forward := network.modifyNode dependent fun node =>
    { node with controlDependencies := node.controlDependencies.filter (· ≠ dependency) }
  (forgetDependent dependent forward dependency).touch [dependent, dependency]

/-- No longer order a node after the given ones, which are all that it is ordered
after. -/
def clearControl (network : Network) (dependent : NodeId) (former : List NodeId) : Network :=
  let forward := network.modifyNode dependent ({ · with controlDependencies := [] })
  (former.foldl (forgetDependent dependent) forward).touch (dependent :: former)

end Network

namespace Edit

/-- Order a node after another, unless it is already. -/
def addControlDependency (dependent dependency : NodeId) : Edit Unit := do
  if dependent = dependency then
    throw (.invalidOperation (.selfDependency ((← get).label dependent)))
  let node ← node dependent
  let _ ← Edit.node dependency
  if dependency ∉ node.controlDependencies then
    change (·.addControl dependent dependency)

/-- No longer order a node after another; whether it was. -/
def removeControlDependency (dependent dependency : NodeId) : Edit Bool := do
  let node ← node dependent
  if dependency ∈ node.controlDependencies then
    change (·.removeControl dependent dependency)
    return true
  else
    return false

/-- No longer order a node after any other. -/
def clearControlDependencies (dependent : NodeId) : Edit Unit := do
  let node ← node dependent
  if node.controlDependencies ≠ [] then
    change (·.clearControl dependent node.controlDependencies)

/-- Order a node after the replacement instead of the target. -/
def redirectDependent (target replacement dependent : NodeId) : Edit Unit := do
  if dependent ≠ replacement then
    let _ ← removeControlDependency dependent target
    addControlDependency dependent replacement

/-- Order the replacement after a node that the target is ordered after. -/
def inheritDependency (replacement dependency : NodeId) : Edit Unit := do
  if dependency ≠ replacement then
    addControlDependency replacement dependency

/-- Put a node into the place of another with as many outputs, which is no
result. -/
def replaceNode (target replacement : NodeId) : Edit Unit := do
  let _ ← node target
  let _ ← node replacement
  let network ← get
  if target ≠ replacement then
    if network.isResult target then
      throw (.invalidOperation (.replacedResult (network.label target)))
    if network.outputCount target ≠ network.outputCount replacement then
      throw (.invalidOperation (.outputCounts
        (network.label target) (network.outputCount target)
        (network.label replacement) (network.outputCount replacement)))
    (List.range (network.outputCount target)).forM fun index =>
      replaceOutput ⟨target, index⟩ ⟨replacement, index⟩
    ((← get).controlDependents target).forM (redirectDependent target replacement)
    ((← get).controlDependencies target).forM (inheritDependency replacement)
    change (·.touch [target, replacement])

end Edit
end TensorGraph
