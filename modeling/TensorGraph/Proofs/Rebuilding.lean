import Mathlib
import TensorGraph.Proofs.Consumers
import TensorGraph.Proofs.Inference

/-!
# Networks built anew

What is inferred when nodes are created agrees with what a pass infers for nodes that are there.
A node whose dependencies were copied can be copied after them: its operator makes sense, as all
do that are in use, the outputs that it reads exist, and its types are those that the original
stores, if that is up to date.  So a network of up to date nodes can be built anew from their
operators alone.
-/

namespace TensorGraph

/-- The attributes of the operator pass the check that comes before a creation. -/
def Operator.Sensible (operator : Operator) : Prop :=
  ∀ network, (Edit.checkOperator operator).on network = (.ok (), network)

/-- What the check of an operator answers has nothing to do with the network. -/
theorem Operator.sensible_of_on {operator : Operator} {network : Network}
    (accepted : (Edit.checkOperator operator).on network = (.ok (), network)) :
    operator.Sensible := by
  intro other
  cases operator with
  | constant elementType sizes values =>
      rw [Edit.checkOperator] at accepted ⊢
      split_ifs at accepted ⊢
      · cases accepted
      · cases accepted
      · cases accepted
      · rfl
  | _ => rfl

namespace Network

/-- The operator of every live node makes sense. -/
def Sensible (network : Network) : Prop :=
  ∀ id node, network.node? id = some node → node.operator.Sensible

namespace Sensible

variable {before after : Network}

theorem of_agree (sensible : before.Sensible) (agree : Agree Node.operator before after) :
    after.Sensible := by
  intro id node found
  have same := agree id
  rw [found, Option.map_some] at same
  obtain ⟨former, formerly, operators⟩ := Option.map_eq_some_iff.mp same.symm
  exact operators ▸ sensible id former formerly

theorem of_nodes (sensible : before.Sensible) (nodes : ∀ id, after.node? id = before.node? id) :
    after.Sensible :=
  sensible.of_agree (.of_node?_eq nodes)

theorem of_addNode (sensible : before.Sensible) (name : String) {operator : Operator}
    (accepted : operator.Sensible) (sources : List OutputPort) (types : List TensorType) :
    (before.addNode name operator sources types).Sensible := by
  intro id node found
  have same := before.node?_addNode name operator sources types
    (fun _ _ _ => rfl : ∀ (node : Node) index change,
      (node.reconsume index change).operator = node.operator) id
  rw [found, Option.map_some] at same
  split at same
  · rw [Option.some.inj same]
    exact accepted
  · obtain ⟨former, formerly, operators⟩ := Option.map_eq_some_iff.mp same.symm
    exact operators ▸ sensible id former formerly

theorem of_release (sensible : before.Sensible) (held : List NodeId) :
    (before.release held).Sensible := by
  intro id node found
  obtain ⟨former, stays, formerly, rfl⟩ := exists_former_of_release found
  exact sensible id former formerly

theorem of_move (move : Move before after) (sensible : before.Sensible) : after.Sensible := by
  cases move with
  | rewired valid reads =>
      exact sensible.of_agree (agree_rewire (fun _ _ _ => rfl) (fun _ _ => rfl) _ _ _ _)
  | rewiredAll alive valid =>
      exact sensible.of_agree (agree_rewireAll (fun _ _ _ => rfl) (fun _ _ => rfl) _ _ _ _)
  | controlAdded distinct alive present new =>
      exact sensible.of_agree (agree_addControl (fun _ _ _ => rfl) _ _ _)
  | controlRemoved alive known =>
      exact sensible.of_agree (agree_removeControl (fun _ _ _ => rfl) _ _ _)
  | controlCleared alive => exact sensible.of_agree (agree_clearControl (fun _ _ _ => rfl) _ _ _)
  | touched => exact sensible.of_agree (agree_touch _ _ _)
  | created accepted valid inferred =>
      exact sensible.of_addNode _ (Operator.sensible_of_on accepted) _ _
  | outputAdded valid inferred =>
      exact of_nodes (sensible.of_addNode _ (fun _ => rfl) _ _) fun id => node?_touchBoundary _ _ _
  | withdrawn => exact sensible.of_agree (agree_withdrawn _ _ _ _ fun _ _ => rfl)
  | inferred alive inferred => exact sensible.of_agree (agree_modifyNode _ _ fun _ => rfl)
  | declared alive parameter =>
      intro id node found
      rw [node?_modifyNode] at found
      split at found
      · obtain ⟨former, -, rfl⟩ := Option.map_eq_some_iff.mp found
        exact fun _ => rfl
      · exact sensible id node found
  | renamed => exact sensible.of_agree (agree_modifyNode _ _ fun _ => rfl)
  | named valid free gives => exact sensible.of_agree (agree_modifyNode _ _ fun _ => rfl)
  | rootsRecorded => exact sensible.of_nodes fun _ => rfl
  | scheduled ordered => exact sensible.of_agree (agree_storeSchedule _ _ _ fun _ _ => rfl)
  | boundaryAdded accepted => exact sensible.of_nodes fun id => node?_touchBoundary _ _ _
  | boundaryRemoved present => exact sensible.of_nodes fun id => node?_touchBoundary _ _ _
  | graphAdded parametersAccepted resultsAccepted sinksAccepted =>
      exact sensible.of_nodes fun _ => rfl
  | graphRetired => exact sensible.of_nodes fun _ => rfl
  | graphDropped =>
      apply sensible.of_agree
      intro id
      rw [node?_dropGraph, Option.map_map]
      rfl
  | graphRenamed => exact sensible.of_nodes fun _ => rfl
  | logged => exact sensible.of_nodes fun _ => rfl
  | released => exact sensible.of_release _

theorem of_moves (moves : Moves before after) (sensible : before.Sensible) : after.Sensible :=
  moves.preserve (fun _ _ move sensible => sensible.of_move move) sensible

end Sensible

theorem sensible_empty : Network.empty.Sensible := by
  intro id node found
  cases id <;> cases found

/-- The number of the copy of a node if the given nodes are copied in turn, from number one on. -/
def copyOf (nodes : List NodeId) (id : NodeId) : NodeId :=
  nodes.idxOf id + 1

/-- An output of the copy of a node. -/
def copiedPort (nodes : List NodeId) (port : OutputPort) : OutputPort :=
  ⟨copyOf nodes port.node, port.index⟩

end Network

namespace Edit

/-- Create a node that computes what a node of another network does and reads what the copies of
its sources give out. -/
def copyNode (original : Network) (nodes : List NodeId) (id : NodeId) : Edit Unit :=
  match original.node? id with
  | some node => do
      let _ ← create node.operator (node.sources.map (Network.copiedPort nodes)) none
  | none => throw (.nodeNotFound id)

/-- Copy nodes of another network in turn. -/
def copyNodes (original : Network) (nodes : List NodeId) : Edit Unit :=
  nodes.forM (copyNode original nodes)

end Edit

namespace Network

section Copying

variable {original fresh after : Network} {nodes placed : List NodeId} {id : NodeId}

/-- What a node computes and the types of its outputs. -/
def typing (node : Node) : Operator × List TensorType :=
  (node.operator, node.outputs.map (·.type))

/-- Copies have been made of those nodes that were placed, and of no others: each computes what
the original does and has the same types. -/
structure Copies (original fresh : Network) (nodes placed : List NodeId) : Prop where
  next : fresh.nodes.nextId = placed.length + 1
  same : ∀ id ∈ placed, (fresh.node? (copyOf nodes id)).map typing = (original.node? id).map typing

theorem copies_empty (original : Network) (nodes : List NodeId) :
    Copies original Network.empty nodes [] where
  next := rfl
  same := by simp

theorem copyOf_of_append {rest : List NodeId} (unplaced : id ∉ placed) :
    copyOf (placed ++ id :: rest) id = placed.length + 1 := by
  rw [copyOf, List.idxOf_append_of_notMem unplaced, List.idxOf_cons_self, Nat.add_zero]

theorem copyOf_le_of_append {rest : List NodeId} (member : id ∈ placed) :
    copyOf (placed ++ rest) id ≤ placed.length := by
  rw [copyOf, List.idxOf_append_of_mem member]
  exact List.idxOf_lt_length_of_mem member

theorem typing_reconsume (node : Node) (index : Nat)
    (change : List InputPort → List InputPort) :
    typing (node.reconsume index change) = typing node := by
  rw [typing, node.map_reconsume index change fun _ _ => rfl]
  rfl

namespace Copies

theorem elim_eq {γ : Type} (copies : Copies original fresh nodes placed) (member : id ∈ placed)
    (view : Operator × List TensorType → γ) (otherwise : γ) :
    (fresh.node? (copyOf nodes id)).elim otherwise (fun node => view (typing node)) =
      (original.node? id).elim otherwise fun node => view (typing node) := by
  have same := congrArg (·.elim otherwise view) (copies.same id member)
  simpa only [Option.elim_map, Function.comp_def] using same

theorem storedTypes_eq (copies : Copies original fresh nodes placed) (member : id ∈ placed) :
    fresh.storedTypes (copyOf nodes id) = original.storedTypes id :=
  copies.elim_eq member Prod.snd []

theorem outputCount_eq (copies : Copies original fresh nodes placed) (member : id ∈ placed) :
    fresh.outputCount (copyOf nodes id) = original.outputCount id := by
  have counts := copies.elim_eq member (·.2.length) 0
  simpa only [outputCount, typing, List.length_map] using counts

/-- To a node that reads it, the copy of an output is what the original is. -/
theorem operand_eq (copies : Copies original fresh nodes placed) {port : OutputPort}
    (member : port.node ∈ placed) :
    fresh.operand (copiedPort nodes port) = original.operand port := by
  have values := congrArg (·.bind fun made => made.1.constantValues?) (copies.same _ member)
  simp only [Option.bind_map] at values
  rw [operand_eq_operandOf, operand_eq_operandOf, copiedPort, copies.storedTypes_eq member]
  exact congrArg (Operand.mk _) values

end Copies

section Placing

variable (linked : original.Linked) (sensible : original.Sensible)

include linked sensible

/-- A node that is up to date can be copied after all that it reads. -/
theorem Copies.copyNode {rest : List NodeId}
    (copies : Copies original fresh (placed ++ id :: rest) placed) (unplaced : id ∉ placed)
    {node : Node} (alive : original.node? id = some node)
    (sources : ∀ source ∈ node.sources, source.node ∈ placed) (upToDate : original.UpToDate id) :
    ∃ after, (Edit.copyNode original (placed ++ id :: rest) id).on fresh = (.ok (), after) ∧
      Copies original after (placed ++ id :: rest) (placed ++ [id]) := by
  have valid : ∀ source ∈ node.sources.map (copiedPort (placed ++ id :: rest)),
      source.index < fresh.outputCount source.node := by
    intro source member
    obtain ⟨port, read, rfl⟩ := List.mem_map.mp member
    obtain ⟨index, reads⟩ := List.getElem?_of_mem read
    rw [copiedPort, copies.outputCount_eq (sources port read)]
    refine linked.lt_outputCount (?_ : original.source? ⟨id, index⟩ = some port)
    rw [source?, Network.sources, alive]
    exact reads
  have inferred : fresh.infer node.operator
      (node.sources.map (copiedPort (placed ++ id :: rest))) = .ok (node.outputs.map (·.type)) := by
    rw [infer, List.map_map, ← upToDate node alive, infer]
    exact congrArg node.operator.infer
      (List.map_congr_left fun source member => copies.operand_eq (sources source member))
  rw [Edit.copyNode, alive]
  dsimp only
  rw [Edit.on_bind, Edit.on_create_of_inferred none (sensible id node alive fresh) valid inferred]
  refine ⟨_, rfl, ⟨?_, fun other member => ?_⟩⟩
  · rw [nextId_addNode, copies.next, List.length_append, List.length_singleton]
  · rw [node?_addNode _ _ _ _ _ typing_reconsume, copies.next]
    rcases List.mem_append.mp member with before | now
    · have earlier : copyOf (placed ++ id :: rest) other ≤ placed.length :=
        copyOf_le_of_append before
      rw [if_neg (Nat.ne_of_lt (Nat.lt_succ_of_le earlier)), copies.same other before]
    · obtain rfl := List.mem_singleton.mp now
      rw [copyOf_of_append unplaced, if_pos rfl, alive, Option.map_some]
      simp [typing, freshNode]

/-- Nodes that are up to date can be copied in turn if each comes after what it depends on. -/
theorem Copies.copyNodes {rest : List NodeId}
    (copies : Copies original fresh (placed ++ rest) placed)
    (sequenced : original.Sequenced placed rest)
    (upToDate : ∀ id ∈ rest, original.UpToDate id) :
    ∃ after, (rest.forM (Edit.copyNode original (placed ++ rest))).on fresh = (.ok (), after) ∧
      Copies original after (placed ++ rest) (placed ++ rest) := by
  induction rest generalizing fresh placed with
  | nil => exact ⟨fresh, rfl, by simpa using copies⟩
  | cons id rest ih =>
      obtain ⟨unplaced, ⟨node, alive⟩, depends, later⟩ := sequenced
      obtain ⟨now, others⟩ := List.forall_mem_cons.mp upToDate
      obtain ⟨between, first, copied⟩ := copies.copyNode linked sensible unplaced alive
        (fun source member => depends _ (mem_dependencies_of_source alive member)) now
      rw [List.append_cons] at copied
      obtain ⟨after, remaining, all⟩ := ih copied later others
      rw [← List.append_cons] at remaining all
      refine ⟨after, ?_, all⟩
      change (Edit.copyNode original (placed ++ id :: rest) id >>= fun _ =>
        rest.forM (Edit.copyNode original (placed ++ id :: rest))).on fresh = _
      rw [Edit.on_bind, first]
      exact remaining

/-- Nodes that are up to date can be built anew in a network without nodes, and then have the
types that they had. -/
theorem copyNodes_of_upToDate (sequenced : original.Sequenced [] nodes)
    (upToDate : ∀ id ∈ nodes, original.UpToDate id) :
    ∃ fresh, (Edit.copyNodes original nodes).on Network.empty = (.ok (), fresh) ∧
      ∀ id ∈ nodes, (fresh.node? (copyOf nodes id)).map typing =
        (original.node? id).map typing := by
  obtain ⟨fresh, copied, copies⟩ :=
    (copies_empty original nodes).copyNodes linked sensible sequenced upToDate
  exact ⟨fresh, copied, copies.same⟩

end Placing

end Copying

end Network

end TensorGraph
