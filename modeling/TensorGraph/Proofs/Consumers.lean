import Mathlib
import TensorGraph.Proofs.Outputs

/-!
# Data edges at both ends

An input is listed among the consumers of an output exactly if it reads the output,
and then once.  Both ends of an edge are changed by separate steps, node by node and
edge by edge, so the invariant counts how often each output lists each input; every
move keeps the counts right.
-/

namespace TensorGraph
namespace Network

/-- Every output lists an input once if the input reads it, and not at all
otherwise. -/
def Linked (network : Network) : Prop :=
  ∀ port input,
    (network.consumers port).count input = if network.source? input = some port then 1 else 0

/-- The inputs that read a node, output by output. -/
def readers (node : Node) : List (List InputPort) :=
  node.outputs.map (·.consumers)

section Ends

variable {network before after : Network}

theorem consumers_eq_readers (network : Network) (port : OutputPort) :
    network.consumers port = ((network.node? port.node).elim [] readers).getD port.index [] := by
  rw [consumers, tensor?]
  cases network.node? port.node with
  | none => rfl
  | some node =>
      simp only [Option.bind_some, Option.elim_some, readers, List.getD_eq_getElem?_getD,
        List.getElem?_map]
      cases node.outputs[port.index]? <;> rfl

theorem Agree.consumers_eq (agree : Agree readers before after) (port : OutputPort) :
    after.consumers port = before.consumers port := by
  rw [consumers_eq_readers, consumers_eq_readers, agree.elim_eq port.node []]

theorem Agree.source?_eq (agree : Agree Node.sources before after) (input : InputPort) :
    after.source? input = before.source? input := by
  have same : after.sources input.node = before.sources input.node := agree.elim_eq input.node []
  rw [source?, same, source?]

theorem Agree.outputCount_eq (agree : Agree (·.outputs.length) before after) (id : NodeId) :
    after.outputCount id = before.outputCount id :=
  agree.elim_eq id 0

theorem Linked.of_agree (linked : before.Linked) (sources : Agree Node.sources before after)
    (consumers : Agree readers before after) : after.Linked := by
  intro port input
  rw [consumers.consumers_eq, sources.source?_eq]
  exact linked port input

theorem Linked.of_nodes (linked : before.Linked) (nodes : ∀ id, after.node? id = before.node? id) :
    after.Linked :=
  linked.of_agree (.of_node?_eq nodes) (.of_node?_eq nodes)

theorem Linked.source?_iff (linked : network.Linked) {port : OutputPort} {input : InputPort} :
    network.source? input = some port ↔ input ∈ network.consumers port := by
  rw [← List.count_pos_iff, linked port input]
  split
  next reads => simp [reads]
  next apart => simp [apart]

theorem Linked.nodup_consumers (linked : network.Linked) (port : OutputPort) :
    (network.consumers port).Nodup :=
  List.nodup_iff_count_le_one.mpr fun input => by
    rw [linked port input]
    split <;> simp

/-- An output that lists a consumer exists. -/
theorem lt_outputCount_of_mem_consumers {port : OutputPort} {input : InputPort}
    (member : input ∈ network.consumers port) : port.index < network.outputCount port.node := by
  rw [consumers, tensor?] at member
  rw [outputCount]
  cases found : network.node? port.node with
  | none => simp [found] at member
  | some node =>
      cases output : node.outputs[port.index]? with
      | none => simp [found, output] at member
      | some tensor => exact (List.getElem?_eq_some_iff.mp output).1

theorem Linked.lt_outputCount (linked : network.Linked) {port : OutputPort} {input : InputPort}
    (reads : network.source? input = some port) :
    port.index < network.outputCount port.node :=
  lt_outputCount_of_mem_consumers (linked.source?_iff.mp reads)

/-- A consumer of an output is an input of a live node. -/
theorem Linked.alive_of_consumer (linked : network.Linked) {port : OutputPort} {input : InputPort}
    (member : input ∈ network.consumers port) : network.Alive input.node := by
  obtain ⟨node, alive, -⟩ := alive_of_source? (linked.source?_iff.mpr member)
  exact ⟨node, alive⟩

theorem exists_tensor_of_lt_outputCount {port : OutputPort}
    (below : port.index < network.outputCount port.node) :
    ∃ tensor, network.tensor? port = some tensor := by
  obtain ⟨node, alive⟩ := alive_of_lt_outputCount below
  rw [outputCount, alive, Option.elim_some] at below
  exact ⟨node.outputs[port.index], by rw [tensor?, alive, Option.bind_some]; simp [below]⟩

end Ends

section Edges

variable {network : Network}

theorem mem_edges {id : NodeId} {sources : List OutputPort} {port : OutputPort}
    {input : InputPort} :
    (port, input) ∈ edges id sources ↔
      input.node = id ∧ sources[input.index]? = some port := by
  obtain ⟨node, index⟩ := input
  simp only [edges, List.mem_mapIdx, Prod.mk.injEq, InputPort.mk.injEq,
    List.getElem?_eq_some_iff]
  constructor
  · rintro ⟨place, below, rfl, rfl, rfl⟩
    exact ⟨rfl, below, rfl⟩
  · rintro ⟨rfl, below, rfl⟩
    exact ⟨index, below, rfl, rfl, rfl⟩

/-- The inputs of a node that read an output, in order. -/
def inputsFrom (id : NodeId) (sources : List OutputPort) (port : OutputPort) : List InputPort :=
  ((List.range sources.length).filter (sources[·]? = some port)).map (⟨id, ·⟩)

/-- The inputs that are paired with an output, in order. -/
def pairedWith (port : OutputPort) (pairs : List (OutputPort × InputPort)) : List InputPort :=
  (pairs.filter (·.1 = port)).map (·.2)

theorem pairedWith_cons (port source : OutputPort) (input : InputPort)
    (pairs : List (OutputPort × InputPort)) :
    pairedWith port ((source, input) :: pairs) =
      (if source = port then [input] else []) ++ pairedWith port pairs := by
  rw [pairedWith, List.filter_cons]
  by_cases same : source = port <;> simp [same, pairedWith]

theorem pairedWith_edges (id : NodeId) (sources : List OutputPort) (port : OutputPort) :
    pairedWith port (edges id sources) = inputsFrom id sources port := by
  induction sources using List.reverseRecOn with
  | nil => rfl
  | append_singleton sources source ih =>
      have earlier : (List.range sources.length).filter ((sources ++ [source])[·]? = some port) =
          (List.range sources.length).filter (sources[·]? = some port) := by
        refine List.filter_congr fun index member => ?_
        rw [List.getElem?_append_left (List.mem_range.mp member)]
      rw [edges] at ih
      rw [edges, List.mapIdx_concat, pairedWith, List.filter_append, List.map_append,
        ← pairedWith, ih, inputsFrom, inputsFrom, List.length_append, List.length_singleton,
        List.range_succ, List.filter_append, List.map_append, earlier]
      by_cases same : source = port <;> simp [same]

theorem mem_inputsFrom {id : NodeId} {sources : List OutputPort} {port : OutputPort}
    {input : InputPort} :
    input ∈ inputsFrom id sources port ↔ input.node = id ∧ sources[input.index]? = some port := by
  rw [← pairedWith_edges, ← mem_edges, pairedWith]
  simp

theorem nodup_inputsFrom (id : NodeId) (sources : List OutputPort) (port : OutputPort) :
    (inputsFrom id sources port).Nodup := by
  refine List.Nodup.map (fun first second same => ?_) (List.nodup_range.filter _)
  exact congrArg InputPort.index same

theorem count_inputsFrom (id : NodeId) (sources : List OutputPort) (port : OutputPort)
    (input : InputPort) :
    (inputsFrom id sources port).count input =
      if input.node = id ∧ sources[input.index]? = some port then 1 else 0 := by
  rw [(nodup_inputsFrom id sources port).count]
  simp only [mem_inputsFrom]

theorem consumers_connect (source port : OutputPort) (input : InputPort)
    (valid : source.index < network.outputCount source.node) :
    (network.connect source input).consumers port =
      if source = port then network.consumers port ++ [input] else network.consumers port := by
  rw [consumers, connect, tensor?_modifyTensor, consumers]
  split
  next same =>
    obtain ⟨tensor, found⟩ := exists_tensor_of_lt_outputCount valid
    rw [← same, found]
    rfl
  · rfl

theorem consumers_disconnect (network : Network) (source port : OutputPort) (input : InputPort) :
    (network.disconnect source input).consumers port =
      if source = port then (network.consumers port).filter (· ≠ input)
      else network.consumers port := by
  rw [consumers, disconnect, tensor?_modifyTensor, consumers]
  split
  · cases network.tensor? port <;> rfl
  · rfl

theorem length_reconsume (node : Node) (index : Nat)
    (change : List InputPort → List InputPort) :
    (node.reconsume index change).outputs.length = node.outputs.length :=
  List.length_modify ..

theorem outputCount_connect (network : Network) (source : OutputPort) (input : InputPort)
    (id : NodeId) : (network.connect source input).outputCount id = network.outputCount id :=
  (agree_connect network source input length_reconsume).outputCount_eq id

/-- Connecting pairs of ports in turn lists at each output the inputs that are paired with it,
behind those that it has and in the order of the pairs. -/
theorem consumers_foldl_connect {pairs : List (OutputPort × InputPort)}
    (valid : ∀ pair ∈ pairs, pair.1.index < network.outputCount pair.1.node)
    (port : OutputPort) :
    (pairs.foldl (fun network (source, input) => network.connect source input)
      network).consumers port = network.consumers port ++ pairedWith port pairs := by
  induction pairs generalizing network with
  | nil => exact (List.append_nil _).symm
  | cons pair pairs ih =>
      obtain ⟨source, input⟩ := pair
      obtain ⟨first, rest⟩ := List.forall_mem_cons.mp valid
      have stillValid : ∀ pair ∈ pairs,
          pair.1.index < (network.connect source input).outputCount pair.1.node := by
        simpa only [outputCount_connect] using rest
      rw [List.foldl_cons, ih stillValid, consumers_connect source port input first,
        pairedWith_cons]
      split <;> simp

/-- Disconnecting pairs of ports in turn takes from each output the inputs that are paired with
it. -/
theorem consumers_foldl_disconnect (network : Network) (pairs : List (OutputPort × InputPort))
    (port : OutputPort) :
    (pairs.foldl (fun network (source, input) => network.disconnect source input)
      network).consumers port =
        (network.consumers port).filter fun input => (port, input) ∉ pairs := by
  induction pairs generalizing network with
  | nil => simp
  | cons pair pairs ih =>
      obtain ⟨source, input⟩ := pair
      rw [List.foldl_cons, ih, consumers_disconnect]
      by_cases same : source = port
      · rw [if_pos same, List.filter_filter]
        refine List.filter_congr fun other _ => ?_
        rw [← Bool.decide_and, decide_eq_decide, List.mem_cons, not_or, and_comm]
        simp [same]
      · rw [if_neg same]
        refine List.filter_congr fun other _ => ?_
        simp [Ne.symm same]

theorem consumers_connectAll (id : NodeId) {sources : List OutputPort}
    (valid : ∀ source ∈ sources, source.index < network.outputCount source.node)
    (port : OutputPort) :
    (network.connectAll id sources).consumers port =
      network.consumers port ++ inputsFrom id sources port := by
  have pairsValid : ∀ pair ∈ edges id sources,
      pair.1.index < network.outputCount pair.1.node :=
    fun pair member => valid pair.1 (List.mem_of_getElem? (mem_edges.mp member).2)
  rw [connectAll, consumers_foldl_connect pairsValid, pairedWith_edges]

theorem consumers_disconnectAll (network : Network) (id : NodeId) (sources : List OutputPort)
    (port : OutputPort) :
    (network.disconnectAll id sources).consumers port =
      (network.consumers port).filter fun input =>
        ¬ (input.node = id ∧ sources[input.index]? = some port) := by
  rw [disconnectAll, consumers_foldl_disconnect]
  simp only [mem_edges]

end Edges

section Rewiring

variable (network : Network)

theorem source?_touch (nodes : List NodeId) (input : InputPort) :
    (network.touch nodes).source? input = network.source? input :=
  Agree.source?_eq (.of_node?_eq fun id => node?_touch network id nodes) input

theorem consumers_touch (nodes : List NodeId) (port : OutputPort) :
    (network.touch nodes).consumers port = network.consumers port :=
  Agree.consumers_eq (.of_node?_eq fun id => node?_touch network id nodes) port

theorem source?_rewire {input : InputPort} {former : OutputPort}
    (reads : network.source? input = some former) (source : OutputPort) (other : InputPort) :
    (network.rewire input former source).source? other =
      if other = input then some source else network.source? other := by
  obtain ⟨node, alive, found⟩ := alive_of_source? reads
  have below := (List.getElem?_eq_some_iff.mp found).1
  have edges (renamed : Network) : Agree Node.sources renamed
      ((renamed.disconnect former input).connect source input) :=
    (agree_disconnect renamed former input fun _ _ _ => rfl).trans
      (agree_connect _ source input fun _ _ _ => rfl)
  rw [rewire, source?_touch, (edges _).source?_eq, source?, sources, node?_modifyNode]
  by_cases here : other = input
  · subst here
    simp [alive, below]
  · rw [if_neg here, source?, sources]
    by_cases sameNode : input.node = other.node
    · have apart : input.index ≠ other.index := by
        intro sameIndex
        cases input
        cases other
        simp_all
      rw [if_pos sameNode, ← sameNode, alive]
      exact List.getElem?_set_ne apart
    · rw [if_neg sameNode]

theorem consumers_rewire {network : Network} (input : InputPort) (former : OutputPort)
    {source : OutputPort} (valid : source.index < network.outputCount source.node)
    (port : OutputPort) :
    (network.rewire input former source).consumers port =
      (if former = port then (network.consumers port).filter (· ≠ input)
        else network.consumers port) ++ if source = port then [input] else [] := by
  have renamed : Agree Node.outputs network (network.modifyNode input.node fun node =>
      { node with sources := node.sources.set input.index source }) :=
    agree_modifyNode network input.node fun _ => rfl
  have counts := (renamed.map List.length).trans
    (agree_disconnect _ former input length_reconsume)
  have same : Agree readers network _ := renamed.map (List.map (·.consumers))
  rw [rewire, consumers_touch, consumers_connect _ _ _ (by rwa [counts.outputCount_eq]),
    consumers_disconnect, same.consumers_eq]
  split <;> simp

theorem source?_rewireAll {network : Network} {id : NodeId} (alive : network.Alive id)
    (former sources : List OutputPort) (other : InputPort) :
    (network.rewireAll id former sources).source? other =
      if other.node = id then sources[other.index]? else network.source? other := by
  obtain ⟨node, alive⟩ := alive
  have edges (renamed : Network) : Agree Node.sources renamed
      ((renamed.disconnectAll id former).connectAll id sources) :=
    (agree_disconnectAll renamed id former fun _ _ _ => rfl).trans
      (agree_connectAll _ id sources fun _ _ _ => rfl)
  rw [rewireAll, source?_touch, (edges _).source?_eq, source?, Network.sources, node?_modifyNode]
  by_cases same : other.node = id
  · rw [if_pos same.symm, if_pos same, same, alive]
    rfl
  · rw [if_neg (Ne.symm same), if_neg same]
    rfl

theorem consumers_rewireAll {network : Network} (id : NodeId) (former : List OutputPort)
    {sources : List OutputPort}
    (valid : ∀ source ∈ sources, source.index < network.outputCount source.node)
    (port : OutputPort) :
    (network.rewireAll id former sources).consumers port =
      ((network.consumers port).filter fun input =>
        ¬ (input.node = id ∧ former[input.index]? = some port)) ++
      inputsFrom id sources port := by
  have renamed : Agree Node.outputs network (network.modifyNode id ({ · with sources })) :=
    agree_modifyNode network id fun _ => rfl
  have counts := (renamed.map List.length).trans
    (agree_disconnectAll _ id former length_reconsume)
  have same : Agree readers network _ := renamed.map (List.map (·.consumers))
  rw [rewireAll, consumers_touch, consumers_connectAll, consumers_disconnectAll,
    same.consumers_eq]
  simpa only [counts.outputCount_eq] using valid

end Rewiring

section NewNode

variable (network : Network) (name : String) (operator : Operator) {sources : List OutputPort}
  (types : List TensorType)

theorem source?_addNode (input : InputPort) :
    (network.addNode name operator sources types).source? input =
      if input.node = network.nodes.nextId then sources[input.index]?
      else network.source? input := by
  rw [source?, sources_addNode]
  split <;> rfl

theorem consumers_addNode
    (valid : ∀ source ∈ sources, source.index < network.outputCount source.node)
    (port : OutputPort) :
    (network.addNode name operator sources types).consumers port =
      network.consumers port ++ inputsFrom network.nodes.nextId sources port := by
  let pushed : Network :=
    { network with nodes := network.nodes.push (freshNode name operator sources types) }
  have nodes (id : NodeId) : pushed.node? id =
      if id = network.nodes.nextId then some (freshNode name operator sources types)
      else network.node? id :=
    Store.get?_push _ _ _
  have unread : pushed.consumers port = network.consumers port := by
    rw [consumers_eq_readers, consumers_eq_readers, nodes]
    split
    next new =>
      have absent : network.node? port.node = none := by
        rw [new, Option.eq_none_iff_forall_ne_some]
        exact fun node found => network.not_alive_nextId ⟨node, found⟩
      rw [absent, Option.elim_some, Option.elim_none, List.getD_nil, readers, freshNode]
      simp only [List.map_map, List.getD_eq_getElem?_getD, List.getElem?_map]
      cases types[port.index]? <;> rfl
    · rfl
  have stillValid : ∀ source ∈ sources, source.index < pushed.outputCount source.node := by
    intro source member
    have old := network.ne_nextId_of_alive (alive_of_lt_outputCount (valid source member))
    rw [outputCount, nodes, if_neg old]
    exact valid source member
  rw [← unread]
  exact consumers_connectAll _ stillValid port

end NewNode

namespace Linked

variable {before after : Network}

theorem of_rewire (linked : before.Linked) {input : InputPort} {former source : OutputPort}
    (valid : source.index < before.outputCount source.node)
    (reads : before.source? input = some former) :
    (before.rewire input former source).Linked := by
  intro port other
  rw [source?_rewire before reads, consumers_rewire input former valid, List.count_append]
  have counted := linked port other
  by_cases same : other = input
  · subst same
    rw [reads] at counted
    have removed : (if former = port then (before.consumers port).filter (· ≠ other)
        else before.consumers port).count other = 0 := by
      split
      · simp [List.count_eq_zero]
      next apart => rw [counted, if_neg (by simpa using apart)]
    rw [removed, if_pos rfl]
    by_cases here : source = port <;> simp [here]
  · have kept : (if former = port then (before.consumers port).filter (· ≠ input)
        else before.consumers port).count other = (before.consumers port).count other := by
      split
      · exact List.count_filter (by simpa using same)
      · rfl
    rw [kept, if_neg same, counted]
    by_cases here : source = port <;> simp [here, Ne.symm same]

theorem of_rewireAll (linked : before.Linked) {id : NodeId} {node : Node}
    {sources : List OutputPort} (alive : before.node? id = some node)
    (valid : ∀ source ∈ sources, source.index < before.outputCount source.node) :
    (before.rewireAll id node.sources sources).Linked := by
  intro port other
  have kept : ((before.consumers port).filter fun input =>
      ¬ (input.node = id ∧ node.sources[input.index]? = some port)).count other =
        if other.node = id ∧ node.sources[other.index]? = some port then 0
        else (before.consumers port).count other := by
    split
    next removed => simp [List.count_eq_zero, removed]
    next stays => exact List.count_filter (decide_eq_true stays)
  rw [source?_rewireAll ⟨node, alive⟩, consumers_rewireAll id _ valid, List.count_append, kept,
    count_inputsFrom, linked port other]
  by_cases same : other.node = id
  · have read : before.source? other = node.sources[other.index]? := by
      rw [source?, Network.sources, same, alive, Option.elim_some]
    simp only [same, true_and, if_true, read]
    split <;> simp
  · simp [same]

theorem of_addNode (linked : before.Linked) (name : String) (operator : Operator)
    {sources : List OutputPort} (types : List TensorType)
    (valid : ∀ source ∈ sources, source.index < before.outputCount source.node) :
    (before.addNode name operator sources types).Linked := by
  intro port input
  rw [source?_addNode, consumers_addNode _ _ _ _ valid, List.count_append, count_inputsFrom,
    linked port input]
  by_cases new : input.node = before.nodes.nextId
  · have absent : before.source? input = none := by
      rw [Option.eq_none_iff_forall_ne_some]
      intro source reads
      obtain ⟨node, alive, -⟩ := alive_of_source? reads
      exact before.ne_nextId_of_alive ⟨node, alive⟩ new
    simp [new, absent]
  · simp [new]

/-- A release forgets an input as a consumer only if the node of the input goes. -/
theorem of_release (linked : before.Linked) (held : List NodeId) :
    (before.release held).Linked := by
  obtain ⟨stays, stays_iff, nodes⟩ := before.node?_release held
  have source?_release (input : InputPort) : (before.release held).source? input =
      if input.node ∈ before.survivors held then before.source? input else none := by
    have sources : (before.release held).sources input.node =
        if input.node ∈ before.survivors held then before.sources input.node else [] :=
      elim_pruned nodes (fun sources => sources) (fun _ => rfl) rfl input.node
    rw [source?, sources, source?]
    split <;> rfl
  have consumers_release (port : OutputPort) : (before.release held).consumers port =
      if port.node ∈ before.survivors held then (before.consumers port).filter (stays ·.node)
      else [] := by
    rw [consumers, tensor?, nodes, consumers, tensor?]
    split
    · cases before.node? port.node with
      | none => rfl
      | some node =>
          simp only [Option.map_some, Option.bind_some, Node.prune, List.getElem?_map]
          cases node.outputs[port.index]? <;> rfl
    · rfl
  intro port input
  rw [source?_release, consumers_release]
  by_cases reads : before.source? input = some port
  · obtain ⟨node, alive, found⟩ := alive_of_source? reads
    have sourceAlive := alive_of_lt_outputCount (linked.lt_outputCount reads)
    by_cases kept : input.node ∈ before.survivors held
    · have depends : port.node ∈ before.dependencies input.node :=
        mem_dependencies_of_source alive (List.mem_of_getElem? found)
      have stay : stays input.node = true := (stays_iff _ ⟨node, alive⟩).mpr kept
      rw [if_pos (mem_survivors_of_dependency kept depends sourceAlive), if_pos kept]
      exact (List.count_filter (p := fun reader => stays reader.node) stay).trans
        (linked port input)
    · have goes : ¬ stays input.node := mt (stays_iff _ ⟨node, alive⟩).mp kept
      rw [if_neg kept]
      split <;> simp [List.count_eq_zero, goes]
  · have unlisted : input ∉ before.consumers port := mt linked.source?_iff.mpr reads
    have unread : (if input.node ∈ before.survivors held then before.source? input else none) ≠
        some port := by
      split
      · exact reads
      · simp
    rw [if_neg unread, List.count_eq_zero]
    split
    · exact fun member => unlisted (List.mem_filter.mp member).1
    · exact List.not_mem_nil

/-- No consumer is dead, so none is forgotten. -/
theorem consumers_of_prune (linked : before.Linked) {id : NodeId} {node : Node}
    (alive : before.node? id = some node) {tensor : Tensor} (member : tensor ∈ node.outputs) :
    tensor.consumers.filter (before.nodes.contains ·.node) = tensor.consumers := by
  obtain ⟨index, found⟩ := List.mem_iff_getElem?.mp member
  have listed : before.consumers ⟨id, index⟩ = tensor.consumers := by
    rw [consumers, tensor?, alive, Option.bind_some, found]
    rfl
  refine List.filter_eq_self.mpr fun input consumes => ?_
  exact (contains_nodes before input.node).mpr (linked.alive_of_consumer (listed ▸ consumes))

theorem of_withdrawn (linked : before.Linked) (name : String) (operator : Operator)
    (sources : List OutputPort) : (before.withdrawn name operator sources).Linked := by
  refine linked.of_agree (agree_withdrawn before name operator sources fun _ _ => rfl) fun id => ?_
  rw [node?_withdrawn, Option.map_map]
  cases alive : before.node? id with
  | none => rfl
  | some node =>
      refine congrArg some ((List.map_map ..).trans (List.map_congr_left fun tensor member => ?_))
      exact linked.consumers_of_prune alive member

theorem of_withTypes (linked : before.Linked) (regular : before.Regular) {id : NodeId}
    {node : Node} {types : List TensorType} (alive : before.node? id = some node)
    (inferred : before.infer node.operator node.sources = .ok types) :
    (before.modifyNode id (·.withTypes types)).Linked :=
  linked.of_agree (agree_modifyNode _ _ fun _ => rfl)
    (agree_modifyNode_of_alive alive
      (Node.map_withTypes ((regular id node alive).length_of_infer inferred) fun _ _ => rfl))

/-- A change of the outputs of a node, other than of their consumers. -/
theorem of_modifyOutput (linked : before.Linked) (id : NodeId) {change : Node → Node} (index : Nat)
    {alter : Tensor → Tensor} (sources : ∀ node, (change node).sources = node.sources)
    (outputs : ∀ node, (change node).outputs = node.outputs.modify index alter)
    (same : ∀ tensor, (alter tensor).consumers = tensor.consumers) :
    (before.modifyNode id change).Linked := by
  refine linked.of_agree (agree_modifyNode _ _ sources) (agree_modifyNode _ _ fun node => ?_)
  apply List.ext_getElem?
  intro place
  simp only [readers, outputs, List.getElem?_map, List.getElem?_modify]
  split <;> simp [Function.comp_def, same]

/-- Every move keeps the ends of all edges in agreement. -/
theorem of_move (move : Move before after) (regular : before.Regular) (linked : before.Linked) :
    after.Linked := by
  cases move with
  | rewired valid reads => exact linked.of_rewire valid reads
  | rewiredAll alive valid => exact linked.of_rewireAll alive valid
  | controlAdded distinct alive present new =>
      exact linked.of_agree (agree_addControl (fun _ _ _ => rfl) _ _ _)
        (agree_addControl (fun _ _ _ => rfl) _ _ _)
  | controlRemoved alive known =>
      exact linked.of_agree (agree_removeControl (fun _ _ _ => rfl) _ _ _)
        (agree_removeControl (fun _ _ _ => rfl) _ _ _)
  | controlCleared alive =>
      exact linked.of_agree (agree_clearControl (fun _ _ _ => rfl) _ _ _)
        (agree_clearControl (fun _ _ _ => rfl) _ _ _)
  | touched => exact linked.of_agree (agree_touch _ _ _) (agree_touch _ _ _)
  | created sensible valid inferred => exact linked.of_addNode _ _ _ valid
  | outputAdded valid inferred =>
      refine of_nodes (linked.of_addNode _ _ _ ?_) fun id => node?_touchBoundary _ _ _
      simpa using valid
  | withdrawn => exact linked.of_withdrawn _ _ _
  | inferred alive inferred => exact linked.of_withTypes regular alive inferred
  | declared alive parameter =>
      exact linked.of_modifyOutput _ 0 (fun _ => rfl) (fun _ => rfl) fun _ => rfl
  | renamed =>
      exact linked.of_agree (agree_modifyNode _ _ fun _ => rfl) (agree_modifyNode _ _ fun _ => rfl)
  | named valid free gives =>
      exact linked.of_modifyOutput _ _ (fun _ => rfl) (fun _ => rfl) fun _ => rfl
  | rootsRecorded => exact linked.of_nodes fun _ => rfl
  | scheduled ordered =>
      exact linked.of_agree (agree_storeSchedule _ _ _ fun _ _ => rfl)
        (agree_storeSchedule _ _ _ fun _ _ => rfl)
  | boundaryAdded accepted => exact linked.of_nodes fun id => node?_touchBoundary _ _ _
  | boundaryRemoved present => exact linked.of_nodes fun id => node?_touchBoundary _ _ _
  | graphAdded parametersAccepted resultsAccepted sinksAccepted =>
      exact linked.of_nodes fun _ => rfl
  | graphRetired => exact linked.of_nodes fun _ => rfl
  | graphDropped =>
      exact linked.of_agree (agree_dropGraph _ _ fun _ _ => rfl)
        (agree_dropGraph _ _ fun _ _ => rfl)
  | graphRenamed => exact linked.of_nodes fun _ => rfl
  | logged => exact linked.of_nodes fun _ => rfl
  | released => exact linked.of_release _

end Linked

theorem linked_empty : Network.empty.Linked := by
  have noNode (id : NodeId) : Network.empty.node? id = none := by
    cases id <;> rfl
  intro port input
  rw [consumers, tensor?, source?, sources, noNode, noNode]
  rfl

theorem Linked.of_moves {before after : Network} (moves : Moves before after)
    (regular : before.Regular) (linked : before.Linked) : after.Linked := by
  have kept (first second : Network) (move : Move first second)
      (known : first.Regular ∧ first.Linked) : second.Regular ∧ second.Linked :=
    ⟨known.1.of_move move, known.2.of_move move known.1⟩
  exact (moves.preserve kept ⟨regular, linked⟩).2

end Network

namespace Session

variable {session : Session}

theorem Reachable.linked (reachable : session.Reachable) : session.network.Linked :=
  Network.linked_empty.of_moves reachable.moves Network.regular_empty

/-- An input reads an output exactly if the output lists it as a consumer, and then it
is listed once and the output exists. -/
theorem Reachable.source_iff_consumer (reachable : session.Reachable) (input : InputPort)
    (port : OutputPort) :
    (session.network.source? input = some port ↔ input ∈ session.network.consumers port) ∧
    (input ∈ session.network.consumers port →
      (session.network.consumers port).count input = 1 ∧
      session.network.Alive input.node ∧
      port.index < session.network.outputCount port.node) := by
  have linked := reachable.linked
  refine ⟨linked.source?_iff, fun member => ?_⟩
  have reads := linked.source?_iff.mpr member
  obtain ⟨node, alive, -⟩ := Network.alive_of_source? reads
  exact ⟨by rw [linked port input, if_pos reads], ⟨node, alive⟩, linked.lt_outputCount reads⟩

/-- A concatenation that reads a parameter twice and itself, after its inputs were
changed in number and a rectifier of the parameter was released. -/
def looped : Session :=
  empty.run [
    .create (.parameter { elementType := .f32, shape := .fixed [2, 3] }) [] none (.text "feed"),
    .create (.concat 0) [⟨1, 0⟩, ⟨1, 0⟩] none (.text "joint"),
    .create .relu [⟨1, 0⟩] none .absent,
    .setSource ⟨2, 1⟩ ⟨2, 0⟩,
    .setSources 2 [⟨1, 0⟩, ⟨2, 0⟩, ⟨1, 0⟩]]

theorem looped_reachable : looped.Reachable :=
  ⟨_, rfl⟩

theorem consumers_looped :
    looped.network.consumers ⟨1, 0⟩ = [⟨2, 0⟩, ⟨2, 2⟩] ∧
    looped.network.source? ⟨2, 2⟩ = some ⟨1, 0⟩ ∧
    (looped.network.consumers ⟨1, 0⟩).count ⟨2, 2⟩ = 1 := by
  have listed : looped.network.consumers ⟨1, 0⟩ = [⟨2, 0⟩, ⟨2, 2⟩] := by cbv
  have member : (⟨2, 2⟩ : InputPort) ∈ looped.network.consumers ⟨1, 0⟩ := by
    rw [listed]
    decide
  obtain ⟨reads_iff, once⟩ := looped_reachable.source_iff_consumer ⟨2, 2⟩ ⟨1, 0⟩
  exact ⟨listed, reads_iff.mpr member, (once member).1⟩

end Session
end TensorGraph
