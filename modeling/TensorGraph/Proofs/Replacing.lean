import TensorGraph.Proofs.Consumers
import TensorGraph.Proofs.ControlEdges

/-!
# Replacing without refusals

Putting an output or a node into the place of another takes many steps, each of which might
be refused.  In a network whose edges agree at both ends none of them is, once the checks at
the beginning have passed: a consumer does read the output that lists it, and both ends of a
control edge are alive.  The operations are then equal to plain changes of the network.
-/

namespace TensorGraph
namespace Network

/-- Outputs fit operators, and data edges and control edges agree at both ends. -/
structure Intact (network : Network) : Prop where
  regular : network.Regular
  linked : network.Linked
  mirrored : network.Mirrored

theorem Intact.of_moves {before after : Network} (moves : Moves before after)
    (intact : before.Intact) : after.Intact where
  regular := intact.regular.of_moves moves
  linked := intact.linked.of_moves moves intact.regular
  mirrored := intact.mirrored.of_moves moves

section Changes

/-- Make inputs that read one output read another. -/
def rewireEach (network : Network) (former source : OutputPort) (inputs : List InputPort) :
    Network :=
  inputs.foldl (fun network input => network.rewire input former source) network

/-- The consumers of an output, apart from the inputs of one node. -/
def consumersApart (network : Network) (port : OutputPort) (node : NodeId) : List InputPort :=
  (network.consumers port).filter (·.node ≠ node)

/-- Make the consumers of an output read another one, unless it is the same. -/
def moveConsumers (network : Network) (former source : OutputPort) : Network :=
  if former = source then network
  else
    (network.rewireEach former source (network.consumersApart former source.node)).touch
      [former.node, source.node]

/-- Make the consumers of some outputs of a node read those of another. -/
def moveOutputs (network : Network) (target replacement : NodeId) (indices : List Nat) : Network :=
  indices.foldl (fun network index => network.moveConsumers ⟨target, index⟩ ⟨replacement, index⟩)
    network

/-- The network with a control edge, whether or not it was there. -/
def withControl (network : Network) (dependent dependency : NodeId) : Network :=
  if dependency ∈ network.controlDependencies dependent then network
  else network.addControl dependent dependency

/-- The network without a control edge, whether or not it was there. -/
def withoutControl (network : Network) (dependent dependency : NodeId) : Network :=
  if dependency ∈ network.controlDependencies dependent then
    network.removeControl dependent dependency
  else network

/-- Order a node after the replacement instead of the target. -/
def redirect (target replacement : NodeId) (network : Network) (dependent : NodeId) : Network :=
  if dependent = replacement then network
  else (network.withoutControl dependent target).withControl dependent replacement

/-- Order the replacement after a node that the target is ordered after. -/
def inherit (replacement : NodeId) (network : Network) (dependency : NodeId) : Network :=
  if dependency = replacement then network else network.withControl replacement dependency

/-- Make the nodes that were ordered after one node be ordered after another. -/
def redirectAll (network : Network) (target replacement : NodeId) : Network :=
  (network.controlDependents target).foldl (redirect target replacement) network

/-- Order a node after all that another one is ordered after. -/
def inheritAll (network : Network) (target replacement : NodeId) : Network :=
  (network.controlDependencies target).foldl (inherit replacement) network

/-- Put a node into the place of another one. -/
def supersede (network : Network) (target replacement : NodeId) : Network :=
  let moved := network.moveOutputs target replacement (List.range (network.outputCount target))
  ((moved.redirectAll target replacement).inheritAll target replacement).touch
    [target, replacement]

end Changes

section Frames

variable (network : Network)

theorem rewireEach_cons (former source : OutputPort) (input : InputPort)
    (inputs : List InputPort) :
    network.rewireEach former source (input :: inputs) =
      (network.rewire input former source).rewireEach former source inputs := by
  rw [rewireEach, List.foldl_cons, rewireEach]

theorem moveOutputs_cons (target replacement : NodeId) (index : Nat) (indices : List Nat) :
    network.moveOutputs target replacement (index :: indices) =
      (network.moveConsumers ⟨target, index⟩ ⟨replacement, index⟩).moveOutputs target replacement
        indices := by
  rw [moveOutputs, List.foldl_cons, moveOutputs]

theorem Linked.nodup_consumersApart {network : Network} (linked : network.Linked)
    (port : OutputPort) (node : NodeId) : (network.consumersApart port node).Nodup :=
  (linked.nodup_consumers port).filter _

theorem Linked.source?_of_mem_consumersApart {network : Network} (linked : network.Linked)
    {port : OutputPort} {node : NodeId} {input : InputPort}
    (member : input ∈ network.consumersApart port node) : network.source? input = some port :=
  linked.source?_iff.mpr (List.mem_filter.mp member).1

theorem outputCount_rewire (input : InputPort) (former source : OutputPort) (id : NodeId) :
    (network.rewire input former source).outputCount id = network.outputCount id := by
  have counts : Agree (·.outputs.length) network (network.rewire input former source) :=
    agree_rewire length_reconsume (fun _ _ => rfl) network input former source
  exact counts.outputCount_eq id

theorem agree_rewireEach {β : Type} {view : Node → β}
    (reconsumed : ∀ (node : Node) index change, view (node.reconsume index change) = view node)
    (rewired : ∀ (node : Node) sources, view { node with sources } = view node)
    (former source : OutputPort) (inputs : List InputPort) :
    Agree view network (network.rewireEach former source inputs) := by
  induction inputs generalizing network with
  | nil => exact .refl view network
  | cons input inputs ih =>
      rw [rewireEach_cons]
      exact (agree_rewire reconsumed rewired network input former source).trans (ih _)

theorem agree_moveConsumers {β : Type} {view : Node → β}
    (reconsumed : ∀ (node : Node) index change, view (node.reconsume index change) = view node)
    (rewired : ∀ (node : Node) sources, view { node with sources } = view node)
    (former source : OutputPort) : Agree view network (network.moveConsumers former source) := by
  rw [moveConsumers]
  split
  · exact .refl view network
  · exact (network.agree_rewireEach reconsumed rewired _ _ _).trans (agree_touch _ _ _)

theorem lt_outputCount_of_mem_range {network : Network} {target replacement : NodeId}
    (counts : network.outputCount target = network.outputCount replacement) :
    ∀ index ∈ List.range (network.outputCount target),
      index < network.outputCount replacement := by
  intro index member
  rw [← counts]
  exact List.mem_range.mp member

theorem outputCount_moveConsumers (former source : OutputPort) (id : NodeId) :
    (network.moveConsumers former source).outputCount id = network.outputCount id := by
  have counts : Agree (·.outputs.length) network (network.moveConsumers former source) :=
    network.agree_moveConsumers length_reconsume (fun _ _ => rfl) former source
  exact counts.outputCount_eq id

theorem agree_moveOutputs {β : Type} {view : Node → β}
    (reconsumed : ∀ (node : Node) index change, view (node.reconsume index change) = view node)
    (rewired : ∀ (node : Node) sources, view { node with sources } = view node)
    (target replacement : NodeId) (indices : List Nat) :
    Agree view network (network.moveOutputs target replacement indices) := by
  induction indices generalizing network with
  | nil => exact .refl view network
  | cons index indices ih =>
      rw [moveOutputs_cons]
      exact (network.agree_moveConsumers reconsumed rewired _ _).trans (ih _)

section Control

variable {β : Type} {view : Node → β}
  (same : ∀ (node : Node) controlDependencies controlDependents,
    view { node with controlDependencies, controlDependents } = view node)

include same

theorem agree_withControl (dependent dependency : NodeId) :
    Agree view network (network.withControl dependent dependency) := by
  rw [withControl]
  split
  · exact .refl view network
  · exact agree_addControl same network dependent dependency

theorem agree_withoutControl (dependent dependency : NodeId) :
    Agree view network (network.withoutControl dependent dependency) := by
  rw [withoutControl]
  split
  · exact agree_removeControl same network dependent dependency
  · exact .refl view network

theorem agree_redirect (target replacement dependent : NodeId) :
    Agree view network (redirect target replacement network dependent) := by
  rw [redirect]
  split
  · exact .refl view network
  · exact (network.agree_withoutControl same _ _).trans (agree_withControl _ same _ _)

theorem agree_inherit (replacement dependency : NodeId) :
    Agree view network (inherit replacement network dependency) := by
  rw [inherit]
  split
  · exact .refl view network
  · exact network.agree_withControl same replacement dependency

theorem agree_foldl_redirect (target replacement : NodeId) (dependents : List NodeId) :
    Agree view network (dependents.foldl (redirect target replacement) network) := by
  induction dependents generalizing network with
  | nil => exact .refl view network
  | cons dependent dependents ih =>
      exact (network.agree_redirect same target replacement dependent).trans (ih _)

theorem agree_foldl_inherit (replacement : NodeId) (dependencies : List NodeId) :
    Agree view network (dependencies.foldl (inherit replacement) network) := by
  induction dependencies generalizing network with
  | nil => exact .refl view network
  | cons dependency dependencies ih =>
      exact (network.agree_inherit same replacement dependency).trans (ih _)

section Supersede

variable
  (reconsumed : ∀ (node : Node) index change, view (node.reconsume index change) = view node)
  (rewired : ∀ (node : Node) sources, view { node with sources } = view node)

include reconsumed rewired

theorem agree_redirectAll_moveOutputs (target replacement : NodeId) (indices : List Nat) :
    Agree view network
      ((network.moveOutputs target replacement indices).redirectAll target replacement) :=
  (network.agree_moveOutputs reconsumed rewired _ _ _).trans (agree_foldl_redirect _ same _ _ _)

theorem agree_supersede (target replacement : NodeId) :
    Agree view network (network.supersede target replacement) :=
  ((network.agree_redirectAll_moveOutputs same reconsumed rewired _ _ _).trans
    (agree_foldl_inherit _ same replacement _)).trans (agree_touch _ _ _)

end Supersede

end Control

end Frames

end Network

namespace Edit

open Network

variable {network : Network}

theorem moves_of_on {α : Type} {edit : Edit α} (follows : edit.Follows)
    {outcome : Except GraphError α} {after : Network} (gives : edit.on network = (outcome, after)) :
    Moves network after := by
  have moves := follows network
  rwa [gives] at moves

section Consumers

theorem on_checkPort (port : OutputPort) :
    (checkPort port).on network =
      (if port.index < network.outputCount port.node then .ok ()
        else .error (.indexOutOfRange port.index (network.outputCount port.node)), network) :=
  on_ask _ network

theorem on_setSource {input : InputPort} {former source : OutputPort}
    (valid : source.index < network.outputCount source.node)
    (reads : network.source? input = some former) :
    (setSource input source).on network = (.ok (), network.rewire input former source) := by
  rw [setSource, on_bind, on_checkPort, if_pos valid]
  dsimp only
  rw [on_bind, Edit.source, on_ask, reads]
  rfl

/-- Inputs that read one output are made to read another one after the other, since rewiring
one of them leaves the sources of the others alone. -/
theorem on_forM_setSource {former source : OutputPort} {inputs : List InputPort}
    (valid : source.index < network.outputCount source.node) (nodup : inputs.Nodup)
    (reads : ∀ input ∈ inputs, network.source? input = some former) :
    (inputs.forM (setSource · source)).on network =
      (.ok (), network.rewireEach former source inputs) := by
  induction inputs generalizing network with
  | nil => rfl
  | cons input inputs ih =>
      obtain ⟨unlisted, rest⟩ := List.nodup_cons.mp nodup
      obtain ⟨now, later⟩ := List.forall_mem_cons.mp reads
      change (setSource input source >>= fun _ => inputs.forM (setSource · source)).on network = _
      rw [on_bind, on_setSource valid now, rewireEach_cons]
      apply ih
      · rwa [outputCount_rewire]
      · exact rest
      · intro other member
        rw [source?_rewire network now, if_neg (ne_of_mem_of_not_mem member unlisted)]
        exact later other member

/-- Whether the consumers of an output can be moved is decided by a look at the other
output alone. -/
theorem on_replaceOutput (linked : network.Linked) (former replacement : OutputPort) :
    (replaceOutput former replacement).on network =
      if replacement.index < network.outputCount replacement.node then
        (.ok (), network.moveConsumers former replacement)
      else
        (.error (.indexOutOfRange replacement.index (network.outputCount replacement.node)),
          network) := by
  rw [replaceOutput, on_bind, on_checkPort]
  by_cases valid : replacement.index < network.outputCount replacement.node
  · rw [if_pos valid, if_pos valid, moveConsumers]
    dsimp only
    by_cases same : former = replacement
    · rw [if_neg (not_not.mpr same), if_pos same]
      rfl
    · rw [if_pos same, if_neg same, on_bind, on_get]
      dsimp only
      rw [on_bind, ← consumersApart, on_forM_setSource valid (linked.nodup_consumersApart former _)
        fun _ => linked.source?_of_mem_consumersApart]
      rfl
  · rw [if_neg valid, if_neg valid]

theorem intact_moveConsumers (intact : network.Intact) (former : OutputPort) {source : OutputPort}
    (valid : source.index < network.outputCount source.node) :
    (network.moveConsumers former source).Intact := by
  have accepted : (replaceOutput former source).on network =
      (.ok (), network.moveConsumers former source) := by
    rw [on_replaceOutput intact.linked, if_pos valid]
  exact intact.of_moves (moves_of_on (follows_replaceOutput _ _) accepted)

theorem on_forM_replaceOutput (intact : network.Intact) (target : NodeId) {replacement : NodeId}
    {indices : List Nat} (below : ∀ index ∈ indices, index < network.outputCount replacement) :
    (indices.forM fun index => replaceOutput ⟨target, index⟩ ⟨replacement, index⟩).on network =
      (.ok (), network.moveOutputs target replacement indices) := by
  induction indices generalizing network with
  | nil => rfl
  | cons index indices ih =>
      obtain ⟨now, later⟩ := List.forall_mem_cons.mp below
      change (replaceOutput _ _ >>= fun _ => indices.forM fun index =>
        replaceOutput ⟨target, index⟩ ⟨replacement, index⟩).on network = _
      rw [on_bind, on_replaceOutput intact.linked, if_pos now, moveOutputs_cons]
      apply ih (intact_moveConsumers intact _ now)
      simpa only [outputCount_moveConsumers] using later

end Consumers

section Control

variable {dependent dependency : NodeId}

theorem on_addControlDependency (distinct : dependent ≠ dependency)
    (alive : network.Alive dependent) (present : network.Alive dependency) :
    (addControlDependency dependent dependency).on network =
      (.ok (), network.withControl dependent dependency) := by
  obtain ⟨node, found⟩ := alive
  obtain ⟨other, known⟩ := present
  have listed : network.controlDependencies dependent = node.controlDependencies := by
    rw [controlDependencies, found, Option.elim_some]
  rw [addControlDependency, if_neg distinct, withControl, listed, on_bind, on_node, found]
  dsimp only
  rw [on_bind, on_node, known]
  dsimp only
  by_cases member : dependency ∈ node.controlDependencies
  · rw [if_neg (not_not.mpr member), if_pos member]
    rfl
  · rw [if_pos member, if_neg member]
    rfl

theorem on_removeControlDependency (dependency : NodeId) (alive : network.Alive dependent) :
    (removeControlDependency dependent dependency).on network =
      (.ok (decide (dependency ∈ network.controlDependencies dependent)),
        network.withoutControl dependent dependency) := by
  obtain ⟨node, found⟩ := alive
  have listed : network.controlDependencies dependent = node.controlDependencies := by
    rw [controlDependencies, found, Option.elim_some]
  rw [removeControlDependency, withoutControl, listed, on_bind, on_node, found]
  dsimp only
  by_cases member : dependency ∈ node.controlDependencies
  · rw [if_pos member, if_pos member, decide_eq_true member]
    rfl
  · rw [if_neg member, if_neg member, decide_eq_false member]
    rfl

theorem on_redirectDependent {target replacement : NodeId} (alive : network.Alive dependent)
    (present : network.Alive replacement) :
    (redirectDependent target replacement dependent).on network =
      (.ok (), redirect target replacement network dependent) := by
  rw [redirectDependent, redirect]
  by_cases same : dependent = replacement
  · rw [if_neg (not_not.mpr same), if_pos same]
    rfl
  · have names : Agree Node.name network (network.withoutControl dependent target) :=
      network.agree_withoutControl (fun _ _ _ => rfl) dependent target
    rw [if_pos same, if_neg same, on_bind, on_removeControlDependency target alive]
    exact on_addControlDependency same ((names.alive_iff dependent).mpr alive)
      ((names.alive_iff replacement).mpr present)

theorem on_inheritDependency {replacement : NodeId} (alive : network.Alive replacement)
    (present : network.Alive dependency) :
    (inheritDependency replacement dependency).on network =
      (.ok (), inherit replacement network dependency) := by
  rw [inheritDependency, inherit]
  by_cases same : dependency = replacement
  · rw [if_neg (not_not.mpr same), if_pos same]
    rfl
  · rw [if_pos same, if_neg same]
    exact on_addControlDependency (Ne.symm same) alive present

theorem on_forM_redirectDependent {target replacement : NodeId} {dependents : List NodeId}
    (alive : ∀ dependent ∈ dependents, network.Alive dependent)
    (present : network.Alive replacement) :
    (dependents.forM (redirectDependent target replacement)).on network =
      (.ok (), dependents.foldl (redirect target replacement) network) := by
  induction dependents generalizing network with
  | nil => rfl
  | cons dependent dependents ih =>
      obtain ⟨now, later⟩ := List.forall_mem_cons.mp alive
      have names : Agree Node.name network (redirect target replacement network dependent) :=
        network.agree_redirect (fun _ _ _ => rfl) target replacement dependent
      change (redirectDependent target replacement dependent >>= fun _ =>
        dependents.forM (redirectDependent target replacement)).on network = _
      rw [on_bind, on_redirectDependent now present]
      apply ih
      · exact fun other member => (names.alive_iff other).mpr (later other member)
      · exact (names.alive_iff replacement).mpr present

theorem on_forM_inheritDependency {replacement : NodeId} {dependencies : List NodeId}
    (alive : network.Alive replacement)
    (present : ∀ dependency ∈ dependencies, network.Alive dependency) :
    (dependencies.forM (inheritDependency replacement)).on network =
      (.ok (), dependencies.foldl (inherit replacement) network) := by
  induction dependencies generalizing network with
  | nil => rfl
  | cons dependency dependencies ih =>
      obtain ⟨now, later⟩ := List.forall_mem_cons.mp present
      have names : Agree Node.name network (inherit replacement network dependency) :=
        network.agree_inherit (fun _ _ _ => rfl) replacement dependency
      change (inheritDependency replacement dependency >>= fun _ =>
        dependencies.forM (inheritDependency replacement)).on network = _
      rw [on_bind, on_inheritDependency alive now]
      apply ih
      · exact (names.alive_iff replacement).mpr alive
      · exact fun other member => (names.alive_iff other).mpr (later other member)

/-- Redirecting dependents is not refused, for both ends of their control edges are alive. -/
theorem on_redirectAll (mirrored : network.Mirrored) (target : NodeId) {replacement : NodeId}
    (present : network.Alive replacement) :
    ((network.controlDependents target).forM (redirectDependent target replacement)).on network =
      (.ok (), network.redirectAll target replacement) :=
  on_forM_redirectDependent (fun _ member => mirrored.alive_dependent member) present

theorem on_inheritAll (mirrored : network.Mirrored) (target : NodeId) {replacement : NodeId}
    (present : network.Alive replacement) :
    ((network.controlDependencies target).forM (inheritDependency replacement)).on network =
      (.ok (), network.inheritAll target replacement) :=
  on_forM_inheritDependency present fun _ member => mirrored.alive_dependency member

end Control

/-- Whether a node can be put into the place of another is decided by a look at the two
nodes; everything after that is done. -/
theorem on_replaceNode (intact : network.Intact) {target replacement : NodeId}
    (alive : network.Alive target) (present : network.Alive replacement) :
    (replaceNode target replacement).on network =
      if target = replacement then (.ok (), network)
      else if network.isResult target then
        (.error (.invalidOperation (.replacedResult (network.label target))), network)
      else if network.outputCount target = network.outputCount replacement then
        (.ok (), network.supersede target replacement)
      else
        (.error (.invalidOperation (.outputCounts
          (network.label target) (network.outputCount target)
          (network.label replacement) (network.outputCount replacement))), network) := by
  obtain ⟨node, found⟩ := alive
  obtain ⟨other, known⟩ := present
  rw [replaceNode, on_bind, on_node, found]
  dsimp only
  rw [on_bind, on_node, known]
  dsimp only
  rw [on_bind, on_get]
  dsimp only
  by_cases same : target = replacement
  · rw [if_neg (not_not.mpr same), if_pos same]
    rfl
  rw [if_pos same, if_neg same]
  by_cases result : network.isResult target
  · rw [if_pos result, if_pos result]
    rfl
  rw [if_neg result, if_neg result]
  by_cases counts : network.outputCount target = network.outputCount replacement
  · have moving := on_forM_replaceOutput intact target (lt_outputCount_of_mem_range counts)
    let moved := network.moveOutputs target replacement (List.range (network.outputCount target))
    have movedIntact : moved.Intact :=
      intact.of_moves (moves_of_on (within_forM fun _ _ => follows_replaceOutput _ _) moving)
    have movedNames : Agree Node.name network moved :=
      network.agree_moveOutputs (fun _ _ _ => rfl) (fun _ _ => rfl) _ _ _
    have movedPresent := (movedNames.alive_iff replacement).mpr ⟨other, known⟩
    have redirecting := on_redirectAll movedIntact.mirrored target movedPresent
    let redirected := moved.redirectAll target replacement
    have redirectedIntact : redirected.Intact :=
      movedIntact.of_moves
        (moves_of_on (within_forM fun _ _ => follows_redirectDependent _ _ _) redirecting)
    have redirectedNames : Agree Node.name moved redirected :=
      moved.agree_foldl_redirect (fun _ _ _ => rfl) _ _ _
    have redirectedPresent := (redirectedNames.alive_iff replacement).mpr movedPresent
    have inheriting := on_inheritAll redirectedIntact.mirrored target redirectedPresent
    rw [if_neg (not_not.mpr counts), if_pos counts, on_bind, moving]
    dsimp only
    rw [on_bind, on_get]
    dsimp only
    rw [on_bind, redirecting]
    dsimp only
    rw [on_bind, on_get]
    dsimp only
    rw [on_bind, inheriting]
    rfl
  · rw [if_pos counts, if_neg counts]
    rfl

end Edit

theorem Session.Reachable.intact {session : Session} (reachable : session.Reachable) :
    session.network.Intact where
  regular := reachable.regular
  linked := reachable.linked
  mirrored := reachable.mirrored

end TensorGraph
