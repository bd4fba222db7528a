import Mathlib.Data.String.Basic
import TensorGraph.Proofs.Runs
import TensorGraph.Proofs.Scheduling

/-!
# Outputs of nodes

Every node has as many outputs as its operator gives, each with its names in
ascending order, and the output of a parameter has the declared type.  Creating a
node, inferring its types, declaring a type and naming a tensor all see to that, and
no other move changes more of an output than its consumers.
-/

namespace TensorGraph

namespace NameSet

theorem mem_insert {name other : String} {set : NameSet} :
    other ∈ insert name set ↔ other = name ∨ other ∈ set := by
  induction set with
  | nil => simp [insert]
  | cons first rest ih =>
      rw [insert]
      split
      · simp
      · split
        next same => simp [same]
        · simp only [List.mem_cons, ih]
          tauto

theorem pairwise_insert (name : String) {set : NameSet} (ascending : set.Pairwise (· < ·)) :
    (insert name set).Pairwise (· < ·) := by
  induction set with
  | nil => simp [insert]
  | cons first rest ih =>
      obtain ⟨least, tail⟩ := List.pairwise_cons.mp ascending
      rw [insert]
      split
      next less =>
        refine List.pairwise_cons.mpr ⟨fun other member => ?_, ascending⟩
        rcases List.mem_cons.mp member with rfl | later
        · exact less
        · exact lt_trans less (least other later)
      · split
        · exact ascending
        next notLess different =>
          refine List.pairwise_cons.mpr ⟨fun other member => ?_, ih tail⟩
          rcases mem_insert.mp member with rfl | later
          · exact lt_of_le_of_ne (not_lt.mp notLess) (Ne.symm different)
          · exact least other later

theorem pairwise_foldl_insert (names : List String) {set : NameSet}
    (ascending : set.Pairwise (· < ·)) :
    (names.foldl (fun set name => insert name set) set).Pairwise (· < ·) := by
  induction names generalizing set with
  | nil => exact ascending
  | cons name names ih => exact ih (pairwise_insert name ascending)

end NameSet

namespace Node

/-- The outputs of a node fit its operator, and their names are in order. -/
structure Regular (node : Node) : Prop where
  count : node.outputs.length = node.operator.outputCount
  declared : ∀ type, node.operator = .parameter type → node.outputs.map (·.type) = [type]
  names : ∀ names ∈ node.outputs.map (·.names), names.Pairwise (· < ·)

theorem Regular.congr {node other : Node} (regular : node.Regular)
    (operator : other.operator = node.operator)
    (types : other.outputs.map (·.type) = node.outputs.map (·.type))
    (names : other.outputs.map (·.names) = node.outputs.map (·.names)) : other.Regular := by
  refine ⟨?_, fun type parameter => ?_, ?_⟩
  · have lengths := congrArg List.length types
    simp only [List.length_map] at lengths
    rw [lengths, operator]
    exact regular.count
  · rw [types]
    exact regular.declared type (operator ▸ parameter)
  · rw [names]
    exact regular.names

variable {β : Type} {view : Tensor → β}

theorem map_withTypes {node : Node} {types : List TensorType}
    (lengths : types.length = node.outputs.length)
    (same : ∀ (tensor : Tensor) type, view { tensor with type } = view tensor) :
    (node.withTypes types).outputs.map view = node.outputs.map view := by
  apply List.ext_getElem
  · simp [withTypes, lengths]
  · intro place _ _
    simp [withTypes, same]

theorem map_type_withTypes {node : Node} {types : List TensorType}
    (lengths : types.length = node.outputs.length) :
    (node.withTypes types).outputs.map (·.type) = types := by
  apply List.ext_getElem
  · simp [withTypes, lengths]
  · intro place _ _
    simp [withTypes]

theorem regular_freshNode (name : String) {operator : Operator} (sources : List OutputPort)
    {operands : List Operand} {types : List TensorType}
    (inferred : operator.infer operands = .ok types) :
    (Network.freshNode name operator sources types).Regular := by
  refine ⟨?_, fun type parameter => ?_, fun names member => ?_⟩
  · simp [Network.freshNode, Operator.length_of_infer inferred]
  · obtain rfl : operator = .parameter type := parameter
    simp [Network.freshNode, Operator.eq_of_infer_parameter inferred]
  · have none : names = [] := by
      simp only [Network.freshNode, List.map_map, List.mem_map] at member
      obtain ⟨type, -, rfl⟩ := member
      rfl
    simp [none]

theorem Regular.length_of_infer {node : Node} (regular : node.Regular) {operands : List Operand}
    {types : List TensorType} (inferred : node.operator.infer operands = .ok types) :
    types.length = node.outputs.length :=
  (Operator.length_of_infer inferred).trans regular.count.symm

theorem Regular.withTypes {node : Node} (regular : node.Regular) {operands : List Operand}
    {types : List TensorType} (inferred : node.operator.infer operands = .ok types) :
    (node.withTypes types).Regular := by
  have lengths := regular.length_of_infer inferred
  refine ⟨?_, fun type parameter => ?_, ?_⟩
  · simp only [Node.withTypes, List.length_zipWith, lengths, Nat.min_self]
    exact regular.count
  · rw [map_type_withTypes lengths]
    rw [show node.operator = .parameter type from parameter] at inferred
    exact Operator.eq_of_infer_parameter inferred
  · rw [map_withTypes lengths fun _ _ => rfl]
    exact regular.names

/-- The output of a regular parameter, with the declared type. -/
theorem Regular.exists_output {node : Node} (regular : node.Regular) {type : TensorType}
    (parameter : node.operator = .parameter type) :
    ∃ tensor, node.outputs = [tensor] ∧ tensor.type = type := by
  have declared := regular.declared type parameter
  cases outputs : node.outputs with
  | nil => simp [outputs] at declared
  | cons tensor others =>
      simp only [outputs, List.map_cons, List.cons.injEq, List.map_eq_nil_iff] at declared
      exact ⟨tensor, by rw [declared.2], declared.1⟩

theorem Regular.declare {node : Node} (regular : node.Regular) {type : TensorType}
    (parameter : node.operator = .parameter type) (update : TensorType → TensorType) :
    (node.declare type update).Regular := by
  obtain ⟨tensor, outputs, sameType⟩ := regular.exists_output parameter
  have names := regular.names
  refine ⟨?_, fun other declared => ?_, ?_⟩
  · simp [Node.declare, outputs, Operator.outputCount]
  · obtain rfl : update type = other := Operator.parameter.inj declared
    simp [Node.declare, outputs, sameType]
  · simpa [Node.declare, outputs] using names

theorem Regular.giveNames {node : Node} (regular : node.Regular) (index : Nat)
    {update : NameSet → NameSet}
    (ascending : ∀ names, names.Pairwise (· < ·) → (update names).Pairwise (· < ·)) :
    Regular { node with
      outputs := node.outputs.modify index fun tensor =>
        { tensor with names := update tensor.names } } := by
  have types : (node.outputs.modify index fun tensor =>
      { tensor with names := update tensor.names }).map (·.type) =
        node.outputs.map (·.type) := by
    apply List.ext_getElem?
    intro place
    simp only [List.getElem?_map, List.getElem?_modify]
    split <;> simp [Function.comp_def]
  refine ⟨?_, fun type parameter => ?_, fun names member => ?_⟩
  · rw [List.length_modify]
    exact regular.count
  · rw [types]
    exact regular.declared type parameter
  · obtain ⟨place, found⟩ := List.getElem?_of_mem member
    simp only [List.getElem?_map, List.getElem?_modify] at found
    cases former : node.outputs[place]? with
    | none => simp [former] at found
    | some tensor =>
        have known : tensor.names.Pairwise (· < ·) :=
          regular.names _ (List.mem_map_of_mem (List.mem_of_getElem? former))
        rw [former] at found
        split at found
        · obtain rfl : update tensor.names = names := Option.some.inj found
          exact ascending _ known
        · obtain rfl : tensor.names = names := Option.some.inj found
          exact known

end Node

namespace Network

/-- The outputs of every live node fit its operator. -/
def Regular (network : Network) : Prop :=
  ∀ id node, network.node? id = some node → node.Regular

/-- The operator of a node and what its outputs are, apart from who reads them. -/
def product (node : Node) : Operator × List TensorType × List NameSet :=
  (node.operator, node.outputs.map (·.type), node.outputs.map (·.names))

theorem product_reconsume (node : Node) (index : Nat)
    (change : List InputPort → List InputPort) :
    product (node.reconsume index change) = product node := by
  rw [product, node.map_reconsume index change fun _ _ => rfl,
    node.map_reconsume index change fun _ _ => rfl]
  rfl

theorem regular_of_product {node other : Node} (regular : node.Regular)
    (same : product other = product node) : other.Regular := by
  simp only [product, Prod.mk.injEq] at same
  exact regular.congr same.1 same.2.1 same.2.2

theorem agree_touch {β : Type} (view : Node → β) (network : Network) (nodes : List NodeId) :
    Agree view network (network.touch nodes) :=
  .of_node?_eq fun id => node?_touch network id nodes

section Rewiring

variable {β : Type} {view : Node → β}
  (reconsumed : ∀ (node : Node) index change, view (node.reconsume index change) = view node)
  (rewired : ∀ (node : Node) sources, view { node with sources } = view node)

include reconsumed rewired

theorem agree_rewire (network : Network) (input : InputPort) (former source : OutputPort) :
    Agree view network (network.rewire input former source) := by
  have renamed : Agree view network (network.modifyNode input.node fun node =>
      { node with sources := node.sources.set input.index source }) :=
    agree_modifyNode network input.node fun node => rewired node _
  refine .trans (renamed.trans ?_) (agree_touch _ _ _)
  exact (agree_disconnect _ former input reconsumed).trans
    (agree_connect _ source input reconsumed)

theorem agree_rewireAll (network : Network) (id : NodeId) (former sources : List OutputPort) :
    Agree view network (network.rewireAll id former sources) := by
  have renamed : Agree view network (network.modifyNode id ({ · with sources := sources })) :=
    agree_modifyNode network id fun node => rewired node sources
  refine .trans (renamed.trans ?_) (agree_touch _ _ _)
  exact (agree_disconnectAll _ id former reconsumed).trans
    (agree_connectAll _ id sources reconsumed)

end Rewiring

section Control

variable {β : Type} {view : Node → β}
  (same : ∀ (node : Node) controlDependencies controlDependents,
    view { node with controlDependencies, controlDependents } = view node)

include same

theorem agree_addControl (network : Network) (dependent dependency : NodeId) :
    Agree view network (network.addControl dependent dependency) := by
  have forward : Agree view network (network.modifyNode dependent fun node =>
      { node with controlDependencies := node.controlDependencies ++ [dependency] }) :=
    agree_modifyNode network dependent fun node => same node _ node.controlDependents
  refine .trans (forward.trans ?_) (agree_touch _ _ _)
  exact agree_modifyNode _ dependency fun node => same node node.controlDependencies _

theorem agree_removeControl (network : Network) (dependent dependency : NodeId) :
    Agree view network (network.removeControl dependent dependency) := by
  have forward : Agree view network (network.modifyNode dependent fun node =>
      { node with controlDependencies := node.controlDependencies.filter (· ≠ dependency) }) :=
    agree_modifyNode network dependent fun node => same node _ node.controlDependents
  refine .trans (forward.trans ?_) (agree_touch _ _ _)
  exact agree_modifyNode _ dependency fun node => same node node.controlDependencies _

theorem agree_clearControl (network : Network) (dependent : NodeId) (former : List NodeId) :
    Agree view network (network.clearControl dependent former) := by
  have forward : Agree view network
      (network.modifyNode dependent ({ · with controlDependencies := [] })) :=
    agree_modifyNode network dependent fun node => same node _ node.controlDependents
  exact .trans (forward.trans (agree_forgetDependents _ dependent former
    fun node => same node node.controlDependencies)) (agree_touch _ _ _)

end Control

namespace Regular

variable {before after : Network}

theorem of_agree (regular : before.Regular) (agree : Agree product before after) :
    after.Regular := by
  intro id node found
  have same := agree id
  rw [found, Option.map_some] at same
  obtain ⟨former, formerly, sameProduct⟩ := Option.map_eq_some_iff.mp same.symm
  exact regular_of_product (regular id former formerly) sameProduct.symm

theorem of_nodes (regular : before.Regular) (nodes : ∀ id, after.node? id = before.node? id) :
    after.Regular :=
  regular.of_agree (.of_node?_eq nodes)

theorem of_modifyNode (regular : before.Regular) {id : NodeId} {change : Node → Node}
    (keeps : ∀ node, before.node? id = some node → node.Regular → (change node).Regular) :
    (before.modifyNode id change).Regular := by
  intro other node found
  rw [node?_modifyNode] at found
  split at found
  next same =>
    obtain ⟨former, formerly, rfl⟩ := Option.map_eq_some_iff.mp found
    exact keeps former (same ▸ formerly) (regular other former formerly)
  · exact regular other node found

theorem of_addNode (regular : before.Regular) (name : String) {operator : Operator}
    {sources : List OutputPort} {types : List TensorType}
    (inferred : before.infer operator sources = .ok types) :
    (before.addNode name operator sources types).Regular := by
  intro id node found
  have same := before.node?_addNode name operator sources types product_reconsume id
  rw [found, Option.map_some] at same
  split at same
  · exact regular_of_product (Node.regular_freshNode name sources inferred) (Option.some.inj same)
  · obtain ⟨former, formerly, sameProduct⟩ := Option.map_eq_some_iff.mp same.symm
    exact regular_of_product (regular id former formerly) sameProduct.symm

theorem of_release (regular : before.Regular) (held : List NodeId) :
    (before.release held).Regular := by
  intro id node found
  obtain ⟨former, stays, formerly, rfl⟩ := exists_former_of_release found
  apply regular_of_product (regular id former formerly)
  simp [product, Node.prune, Function.comp_def]

theorem of_move (move : Move before after) (regular : before.Regular) : after.Regular := by
  cases move with
  | rewired valid reads =>
      exact regular.of_agree (agree_rewire product_reconsume (fun _ _ => rfl) _ _ _ _)
  | rewiredAll alive valid =>
      exact regular.of_agree (agree_rewireAll product_reconsume (fun _ _ => rfl) _ _ _ _)
  | controlAdded distinct alive present new =>
      exact regular.of_agree (agree_addControl (fun _ _ _ => rfl) _ _ _)
  | controlRemoved alive known =>
      exact regular.of_agree (agree_removeControl (fun _ _ _ => rfl) _ _ _)
  | controlCleared alive => exact regular.of_agree (agree_clearControl (fun _ _ _ => rfl) _ _ _)
  | touched => exact regular.of_agree (agree_touch _ _ _)
  | created sensible valid inferred => exact regular.of_addNode _ inferred
  | outputAdded valid inferred =>
      exact of_nodes (regular.of_addNode _ inferred) fun id => node?_touchBoundary _ _ _
  | withdrawn =>
      refine regular.of_agree (agree_withdrawn _ _ _ _ fun node stays => ?_)
      simp [product, Node.prune, Function.comp_def]
  | inferred alive inferred =>
      apply regular.of_modifyNode
      intro node found known
      obtain rfl := Option.some.inj (alive.symm.trans found)
      exact known.withTypes inferred
  | declared alive parameter =>
      apply regular.of_modifyNode
      intro node found known
      obtain rfl := Option.some.inj (alive.symm.trans found)
      exact known.declare parameter _
  | renamed => exact regular.of_agree (agree_modifyNode _ _ fun _ => rfl)
  | named valid free gives =>
      refine regular.of_modifyNode fun node found known => known.giveNames _ ?_
      intro names ascending
      rcases gives with rfl | rfl
      · exact NameSet.pairwise_foldl_insert _ List.Pairwise.nil
      · exact NameSet.pairwise_foldl_insert _ ascending
  | rootsRecorded => exact regular.of_nodes fun _ => rfl
  | scheduled ordered => exact regular.of_agree (agree_storeSchedule _ _ _ fun _ _ => rfl)
  | boundaryAdded accepted => exact regular.of_nodes fun id => node?_touchBoundary _ _ _
  | boundaryRemoved present => exact regular.of_nodes fun id => node?_touchBoundary _ _ _
  | graphAdded parametersAccepted resultsAccepted sinksAccepted =>
      exact regular.of_nodes fun _ => rfl
  | graphRetired => exact regular.of_nodes fun _ => rfl
  | graphDropped =>
      apply regular.of_agree
      intro id
      rw [node?_dropGraph, Option.map_map]
      rfl
  | graphRenamed => exact regular.of_nodes fun _ => rfl
  | logged => exact regular.of_nodes fun _ => rfl
  | released => exact regular.of_release _

theorem of_moves (moves : Moves before after) (regular : before.Regular) : after.Regular :=
  moves.preserve (fun _ _ move regular => regular.of_move move) regular

end Regular

theorem regular_empty : Network.empty.Regular := by
  intro id node found
  cases id <;> cases found

end Network

theorem Session.Reachable.regular {session : Session} (reachable : session.Reachable) :
    session.network.Regular :=
  Network.regular_empty.of_moves reachable.moves

end TensorGraph
