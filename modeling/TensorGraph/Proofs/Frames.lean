import Mathlib.Data.List.Nodup
import TensorGraph.Graph.Boundary
import TensorGraph.Network.Naming

/-!
# What a change leaves alone

The nodes and the graphs of a network after each elementary change, and which
parts of every node stay as they were.  A part of a node is given by a view of
it; a change that does not show in the view of any node leaves the two networks
in agreement on that view.
-/

namespace TensorGraph

theorem Store.lt_nextId {α : Type} {store : Store α} {id : Nat} {value : α}
    (found : store.get? id = some value) : id < store.nextId := by
  rw [Store.get?] at found
  cases slot : store.slots[id]? with
  | none => simp [slot] at found
  | some _ => exact (Array.getElem?_eq_some_iff.mp slot).1

theorem Store.nodup_ids {α : Type} (store : Store α) : store.ids.Nodup := by
  rw [Store.ids, List.nodup_reverse]
  exact List.nodup_range.filter _

/-- Two values with one image are both missing or both there. -/
theorem map_eq_map_cases {α β : Type} {f : α → β} {first second : Option α}
    (same : first.map f = second.map f) :
    first = none ∧ second = none ∨
      ∃ value other, first = some value ∧ second = some other ∧ f value = f other := by
  cases first with
  | none => exact Or.inl ⟨rfl, Option.map_eq_none_iff.mp same.symm⟩
  | some value =>
      obtain ⟨other, found, images⟩ := Option.map_eq_some_iff.mp same.symm
      exact Or.inr ⟨value, other, rfl, found, images.symm⟩

theorem exists_of_bind_eq_ok {ε α β : Type} {first : Except ε α} {next : α → Except ε β} {value : β}
    (ok : first >>= next = .ok value) : ∃ middle, first = .ok middle ∧ next middle = .ok value := by
  cases first with
  | error error => cases ok
  | ok middle => exact ⟨middle, rfl, ok⟩

/-- The parts of a graph that only schedules and edits of its boundary change. -/
def Graph.course (graph : Graph) :
    List NodeId × List NodeId × List NodeId × List NodeId × List NodeId :=
  (graph.parameters, graph.results, graph.sinks, graph.schedule, graph.roster)

section Course

variable {graph other : Graph} (same : graph.course = other.course)

include same

theorem Graph.boundary_eq_of_course : graph.boundary = other.boundary := by
  simp only [course, Prod.mk.injEq] at same
  funext part
  cases part with
  | parameters => exact same.1
  | results => exact same.2.1
  | sinks => exact same.2.2.1

theorem Graph.currentRoots_eq_of_course : graph.currentRoots = other.currentRoots := by
  simp only [course, Prod.mk.injEq] at same
  rw [currentRoots, currentRoots, same.1, same.2.1, same.2.2.1]

theorem Graph.schedule_eq_of_course : graph.schedule = other.schedule :=
  congrArg (·.2.2.2.1) same

theorem Graph.roster_eq_of_course : graph.roster = other.roster :=
  congrArg (·.2.2.2.2) same

end Course

/-- What is left once the schedule is no longer up to date. -/
def GraphRecord.stale (record : GraphRecord) : GraphRecord :=
  record.modifyInfo ({ · with isFresh := false })

@[simp] theorem GraphRecord.stale_stale (record : GraphRecord) :
    record.stale.stale = record.stale := by
  cases record <;> rfl

theorem GraphRecord.stale_eq_self (record : GraphRecord) (isStale : ¬ record.info.isFresh) :
    record.stale = record :=
  modifyInfo_eq_self (by rw [← (Bool.not_eq_true _).mp isStale])

/-- Change the consumers of an output. -/
def Node.reconsume (node : Node) (index : Nat) (change : List InputPort → List InputPort) :
    Node :=
  { node with
    outputs := node.outputs.modify index fun tensor =>
      { tensor with consumers := change tensor.consumers } }

theorem Node.map_reconsume {β : Type} {view : Tensor → β} (node : Node)
    (index : Nat) (change : List InputPort → List InputPort)
    (same : ∀ (tensor : Tensor) consumers, view { tensor with consumers } = view tensor) :
    (node.reconsume index change).outputs.map view = node.outputs.map view := by
  apply List.ext_getElem?
  intro place
  simp only [reconsume, List.getElem?_map, List.getElem?_modify]
  split <;> simp [Function.comp_def, same]

namespace Network

/-- There is a node with the number. -/
def Alive (network : Network) (id : NodeId) : Prop :=
  ∃ node, network.node? id = some node

theorem mem_ids {network : Network} {id : NodeId} :
    id ∈ network.nodes.ids ↔ network.Alive id :=
  Store.mem_ids

theorem lt_nextId_of_mem_ids (network : Network) :
    ∀ id ∈ network.nodes.ids, id < network.nodes.nextId := by
  intro id member
  obtain ⟨node, found⟩ := mem_ids.mp member
  exact Store.lt_nextId found

theorem alive_iff_role? {network : Network} {id : NodeId} :
    network.Alive id ↔ ∃ role, network.role? id = some role := by
  rw [Alive, role?]
  cases network.node? id <;> simp

theorem alive_of_lt_outputCount {network : Network} {id : NodeId} {index : Nat}
    (below : index < network.outputCount id) : network.Alive id := by
  rw [outputCount] at below
  cases found : network.node? id with
  | none => simp [found] at below
  | some node => exact ⟨node, found⟩

theorem graph_of_graph? {network : Network} {id : GraphId} {graph : Graph}
    (found : network.graph? id = some graph) : network.graph id = graph := by
  rw [Network.graph, found, Option.getD_some]

theorem get?_of_graph? {network : Network} {id : GraphId} {graph : Graph}
    (found : network.graph? id = some graph) : network.graphs.get? id = some (.live graph) := by
  obtain ⟨record, there, isLive⟩ := Option.bind_eq_some_iff.mp found
  cases record with
  | live other => exact there.trans (congrArg (some <| GraphRecord.live ·) (Option.some.inj isLive))
  | retained info => cases isLive

theorem get?_of_retained? {network : Network} {id : GraphId} {info : GraphInfo}
    (found : network.retained? id = some info) :
    network.graphs.get? id = some (.retained info) := by
  obtain ⟨record, there, isRetained⟩ := Option.bind_eq_some_iff.mp found
  cases record with
  | live graph => cases isRetained
  | retained other =>
      exact there.trans (congrArg (some <| GraphRecord.retained ·) (Option.some.inj isRetained))

/-- Nothing else is left of a graph that was not dropped. -/
theorem graph?_eq_none_of_retained? {network : Network} {id : GraphId} {info : GraphInfo}
    (found : network.retained? id = some info) : network.graph? id = none := by
  rw [graph?, get?_of_retained? found]
  rfl

theorem info_of_graph? {network : Network} {id : GraphId} {graph : Graph}
    (found : network.graph? id = some graph) : network.info id = graph.toGraphInfo := by
  rw [info, info?, get?_of_graph? found]
  rfl

theorem info_of_retained? {network : Network} {id : GraphId} {info : GraphInfo}
    (found : network.retained? id = some info) : network.info id = info := by
  rw [Network.info, info?, get?_of_retained? found]
  rfl

section Stale

variable {before after : Network} {id : GraphId} {turns : Prop} [Decidable turns]

/-- A graph becomes stale if what is under its number does. -/
theorem graph?_of_stale
    (effect : after.graphs.get? id = (before.graphs.get? id).map fun record =>
      if turns then record.stale else record) :
    after.graph? id = (before.graph? id).map fun graph =>
      if turns then { graph with isFresh := false } else graph := by
  rw [graph?, effect, graph?]
  cases before.graphs.get? id with
  | none => rfl
  | some record =>
      rw [Option.map_some, Option.bind_some, Option.bind_some]
      split
      · exact record.live?_modifyInfo _
      · exact Option.map_id'.symm

/-- What is left of a dropped graph becomes stale if what is under its number does. -/
theorem retained?_of_stale
    (effect : after.graphs.get? id = (before.graphs.get? id).map fun record =>
      if turns then record.stale else record) :
    after.retained? id = (before.retained? id).map fun info =>
      if turns then { info with isFresh := false } else info := by
  rw [retained?, effect, retained?]
  cases before.graphs.get? id with
  | none => rfl
  | some record =>
      rw [Option.map_some, Option.bind_some, Option.bind_some]
      split
      · exact record.retained?_modifyInfo _
      · exact Option.map_id'.symm

end Stale

/-- Only what is there has members, be it a graph or what is left of one. -/
theorem exists_of_mem_roster {network : Network} {id : GraphId} {node : NodeId}
    (listed : node ∈ (network.info id).roster) :
    (∃ graph, network.graph? id = some graph) ∨ ∃ info, network.retained? id = some info := by
  rw [Network.info, info?] at listed
  rw [graph?, retained?]
  cases found : network.graphs.get? id with
  | none =>
      rw [found] at listed
      cases listed
  | some record =>
      cases record with
      | live graph => exact Or.inl ⟨graph, rfl⟩
      | retained info => exact Or.inr ⟨info, rfl⟩

theorem info_eq_of_graphs {before after : Network} (same : after.graphs = before.graphs)
    (id : GraphId) : after.info id = before.info id := by
  rw [info, info?, same, info, info?]

theorem graph?_eq_of_graphs {before after : Network} (same : after.graphs = before.graphs)
    (id : GraphId) : after.graph? id = before.graph? id := by
  rw [graph?, graph?, same]

theorem retained?_eq_of_graphs {before after : Network} (same : after.graphs = before.graphs)
    (id : GraphId) : after.retained? id = before.retained? id := by
  rw [retained?, retained?, same]

section Lookup

variable (network : Network) (id : Nat)

theorem node?_modifyNode (target : NodeId) (change : Node → Node) :
    (network.modifyNode target change).node? id =
      if target = id then (network.node? id).map change else network.node? id :=
  Store.get?_modify _ _ _ _

theorem modifyNode_comm {first second : NodeId} (different : first ≠ second)
    (change other : Node → Node) :
    (network.modifyNode first change).modifyNode second other =
      (network.modifyNode second other).modifyNode first change :=
  congrArg (fun nodes => { network with nodes })
    (Store.modify_comm network.nodes different change other)

@[simp] theorem node?_modifyGraph (target : GraphId) (change : Graph → Graph) :
    (network.modifyGraph target change).node? id = network.node? id :=
  rfl

theorem graph?_modifyGraph (target : GraphId) (change : Graph → Graph) :
    (network.modifyGraph target change).graph? id =
      if target = id then (network.graph? id).map change else network.graph? id := by
  rw [graph?, modifyGraph, Store.get?_modify, graph?]
  split
  · cases network.graphs.get? id <;> simp
  · rfl

@[simp] theorem retained?_modifyGraph (target : GraphId) (change : Graph → Graph) :
    (network.modifyGraph target change).retained? id = network.retained? id := by
  rw [retained?, modifyGraph, Store.get?_modify, retained?]
  split
  · cases network.graphs.get? id <;> simp
  · rfl

theorem graph?_modifyInfo (target : GraphId) (change : GraphInfo → GraphInfo) :
    (network.modifyInfo target change).graph? id =
      if target = id then
        (network.graph? id).map fun graph =>
          { graph with toGraphInfo := change graph.toGraphInfo }
      else network.graph? id := by
  rw [graph?, modifyInfo, Store.get?_modify, graph?]
  split
  · cases network.graphs.get? id <;> simp
  · rfl

/-- A change of graphs that keeps their rosters. -/
theorem roster_modifyGraph (target : GraphId) {change : Graph → Graph}
    (same : ∀ graph, (change graph).roster = graph.roster) :
    ((network.modifyGraph target change).info id).roster = (network.info id).roster := by
  rw [info, info?, modifyGraph, Store.get?_modify, info, info?]
  split
  · rcases network.graphs.get? id with _ | ⟨graph | retained⟩
    · rfl
    · exact same graph
    · rfl
  · rfl

@[simp] theorem nextId_modifyNode (change : Node → Node) :
    (network.modifyNode id change).nodes.nextId = network.nodes.nextId :=
  network.nodes.nextId_modify id change

@[simp] theorem node?_report (event : Event) :
    (network.report event).node? id = network.node? id :=
  rfl

@[simp] theorem graph?_report (event : Event) :
    (network.report event).graph? id = network.graph? id :=
  rfl

theorem tensor?_modifyTensor (target port : OutputPort) (change : Tensor → Tensor) :
    (network.modifyTensor target change).tensor? port =
      if target = port then (network.tensor? port).map change else network.tensor? port := by
  obtain ⟨targetNode, targetIndex⟩ := target
  obtain ⟨node, index⟩ := port
  simp only [tensor?, modifyTensor, node?_modifyNode, OutputPort.mk.injEq]
  by_cases sameNode : targetNode = node
  · simp only [sameNode, true_and, if_true]
    cases network.node? node with
    | none => simp
    | some found =>
        simp only [Option.map_some, Option.bind_some, List.getElem?_modify]
        split <;> simp
  · simp only [sameNode, false_and, if_false]

omit id in
/-- A chain of changes, none of which concerns what is viewed. -/
theorem view_foldl {β γ : Type} (view : Network → γ) (change : Network → β → Network)
    (same : ∀ network item, view (change network item) = view network) (items : List β) :
    view (items.foldl change network) = view network := by
  induction items generalizing network with
  | nil => rfl
  | cons item items ih => exact (ih _).trans (same network item)

section Edges

variable {γ : Type} (view : Network → γ)
  (same : ∀ (network : Network) (id : NodeId) (change : Node → Node),
    view (network.modifyNode id change) = view network)

include same

omit id in
/-- What changes of nodes do not concern, connecting inputs does not concern either. -/
theorem view_connectAll (node : NodeId) (sources : List OutputPort) :
    view (network.connectAll node sources) = view network := by
  rw [connectAll]
  exact network.view_foldl view _ (fun _ _ => same _ _ _) _

omit id in
/-- What changes of nodes do not concern, disconnecting inputs does not concern either. -/
theorem view_disconnectAll (node : NodeId) (sources : List OutputPort) :
    view (network.disconnectAll node sources) = view network := by
  rw [disconnectAll]
  exact network.view_foldl view _ (fun _ _ => same _ _ _) _

end Edges

omit id in
theorem graphs_connectAll (node : NodeId) (sources : List OutputPort) :
    (network.connectAll node sources).graphs = network.graphs :=
  network.view_connectAll (·.graphs) (fun _ _ _ => rfl) node sources

omit id in
theorem graphs_disconnectAll (node : NodeId) (sources : List OutputPort) :
    (network.disconnectAll node sources).graphs = network.graphs :=
  network.view_disconnectAll (·.graphs) (fun _ _ _ => rfl) node sources

omit id in
@[simp] theorem nextId_connectAll (node : NodeId) (sources : List OutputPort) :
    (network.connectAll node sources).nodes.nextId = network.nodes.nextId :=
  network.view_connectAll (·.nodes.nextId) (fun _ _ _ => nextId_modifyNode _ _ _) node sources

omit id in
@[simp] theorem nextId_disconnectAll (node : NodeId) (sources : List OutputPort) :
    (network.disconnectAll node sources).nodes.nextId = network.nodes.nextId :=
  network.view_disconnectAll (·.nodes.nextId) (fun _ _ _ => nextId_modifyNode _ _ _) node sources

@[simp] theorem graph?_connectAll (node : NodeId) (sources : List OutputPort) :
    (network.connectAll node sources).graph? id = network.graph? id :=
  graph?_eq_of_graphs (network.graphs_connectAll node sources) id

theorem node?_touchGraph (node : NodeId) (graph : GraphId) :
    (touchGraph node network graph).node? id = network.node? id := by
  rw [touchGraph]
  split <;> rfl

omit id in
theorem nodes_touch (nodes : List NodeId) : (network.touch nodes).nodes = network.nodes := by
  have single (node : NodeId) (network : Network) (graph : GraphId) :
      (touchGraph node network graph).nodes = network.nodes := by
    rw [touchGraph]
    split <;> rfl
  exact network.view_foldl (·.nodes) touchNode
    (fun network node => network.view_foldl (·.nodes) (touchGraph node) (single node) _) nodes

theorem node?_touchNode (node : NodeId) :
    (network.touchNode node).node? id = network.node? id := by
  rw [touchNode]
  induction network.memberships node generalizing network with
  | nil => rfl
  | cons graph graphs ih => exact (ih _).trans (node?_touchGraph _ _ _ _)

@[simp] theorem node?_touch (nodes : List NodeId) :
    (network.touch nodes).node? id = network.node? id := by
  rw [touch]
  induction nodes generalizing network with
  | nil => rfl
  | cons node nodes ih => exact (ih _).trans (node?_touchNode _ _ _)

theorem get?_touchGraph (node : NodeId) (graph : GraphId) :
    (touchGraph node network graph).graphs.get? id =
      (network.graphs.get? id).map fun record => if id = graph then record.stale else record := by
  rw [touchGraph]
  by_cases fresh : (network.info graph).isFresh
  · rw [if_pos fresh]
    change (Store.modify _ graph _).get? id = _
    rw [Store.get?_modify]
    by_cases same : graph = id
    · simp [same, GraphRecord.stale]
    · simp [same, Ne.symm same]
  · rw [if_neg fresh]
    cases found : network.graphs.get? id with
    | none => rfl
    | some record =>
        by_cases same : id = graph
        · subst same
          rw [info, info?, found, Option.map_some, Option.getD_some] at fresh
          rw [Option.map_some, if_pos rfl, record.stale_eq_self fresh]
        · simp [same]

theorem get?_foldl_touchGraph (node : NodeId) (graphs : List GraphId) :
    (graphs.foldl (touchGraph node) network).graphs.get? id =
      (network.graphs.get? id).map fun record =>
        if id ∈ graphs then record.stale else record := by
  induction graphs generalizing network with
  | nil => simp
  | cons graph graphs ih =>
      rw [List.foldl_cons, ih, get?_touchGraph, Option.map_map]
      congr 1
      funext record
      by_cases first : id = graph <;> by_cases later : id ∈ graphs <;>
        simp [first, later, Function.comp_apply]

/-- What is there under the number of a graph that one of the touched nodes knows becomes
stale. -/
theorem get?_touch (nodes : List NodeId) :
    (network.touch nodes).graphs.get? id =
      (network.graphs.get? id).map fun record =>
        if ∃ node ∈ nodes, id ∈ network.memberships node then record.stale else record := by
  rw [touch]
  induction nodes generalizing network with
  | nil => simp
  | cons node nodes ih =>
      have same (other : NodeId) :
          (network.touchNode node).memberships other = network.memberships other := by
        rw [memberships, node?_touchNode, memberships]
      rw [List.foldl_cons, ih, touchNode, get?_foldl_touchGraph, Option.map_map]
      rw [touchNode] at same
      congr 1
      funext record
      simp only [same, List.mem_cons, exists_eq_or_imp, Function.comp_apply]
      by_cases first : id ∈ network.memberships node <;>
        by_cases later : ∃ node ∈ nodes, id ∈ network.memberships node <;> simp [first, later]

/-- The graphs that one of the touched nodes knows become stale. -/
theorem graph?_touch (nodes : List NodeId) :
    (network.touch nodes).graph? id =
      (network.graph? id).map fun found =>
        if ∃ node ∈ nodes, id ∈ network.memberships node then { found with isFresh := false }
        else found :=
  graph?_of_stale (network.get?_touch id nodes)

theorem roster_touch (nodes : List NodeId) :
    ((network.touch nodes).info id).roster = (network.info id).roster := by
  rw [info, info?, get?_touch, info, info?]
  cases network.graphs.get? id with
  | none => rfl
  | some record =>
      rw [Option.map_some, Option.map_some]
      split
      · cases record <;> rfl
      · rfl

theorem retained?_touch (nodes : List NodeId) :
    (network.touch nodes).retained? id =
      (network.retained? id).map fun info =>
        if ∃ node ∈ nodes, id ∈ network.memberships node then { info with isFresh := false }
        else info :=
  retained?_of_stale (network.get?_touch id nodes)

end Lookup

section Agreement

variable {β γ : Type}

/-- Two networks have the same nodes as far as a view of them shows. -/
def Agree (view : Node → β) (before after : Network) : Prop :=
  ∀ id, (after.node? id).map view = (before.node? id).map view

variable {view : Node → β} {before between after : Network}

theorem Agree.refl (view : Node → β) (network : Network) : Agree view network network :=
  fun _ => rfl

theorem Agree.trans (first : Agree view before between) (second : Agree view between after) :
    Agree view before after :=
  fun id => (second id).trans (first id)

theorem Agree.symm (agree : Agree view before after) : Agree view after before :=
  fun id => (agree id).symm

theorem Agree.of_node?_eq (same : ∀ id, after.node? id = before.node? id) :
    Agree view before after :=
  fun id => congrArg (Option.map view) (same id)

/-- Agreement on a view is agreement on what depends on it alone. -/
theorem Agree.map (agree : Agree view before after) (coarsen : β → γ) :
    Agree (fun node => coarsen (view node)) before after := by
  intro id
  have same := congrArg (Option.map coarsen) (agree id)
  rwa [Option.map_map, Option.map_map] at same

theorem Agree.elim_eq (agree : Agree view before after) (id : NodeId) (otherwise : β) :
    (after.node? id).elim otherwise view = (before.node? id).elim otherwise view := by
  rcases map_eq_map_cases (agree id) with
    ⟨later, former⟩ | ⟨node, other, later, former, same⟩
  · rw [later, former]
  · rw [later, former, Option.elim_some, Option.elim_some, same]

theorem Agree.bind_eq {γ : Type} {view : Node → Option γ} (agree : Agree view before after)
    (id : NodeId) : (after.node? id).bind view = (before.node? id).bind view := by
  rcases map_eq_map_cases (agree id) with
    ⟨later, former⟩ | ⟨node, other, later, former, same⟩
  · rw [later, former]
  · rw [later, former, Option.bind_some, Option.bind_some, same]

theorem Agree.alive_iff (agree : Agree view before after) (id : NodeId) :
    after.Alive id ↔ before.Alive id := by
  rw [Alive, Alive]
  rcases map_eq_map_cases (agree id) with ⟨later, former⟩ | ⟨node, other, later, former, -⟩
  · rw [later, former]
  · exact iff_of_true ⟨node, later⟩ ⟨other, former⟩

theorem agree_modifyNode (network : Network) (target : NodeId) {change : Node → Node}
    (same : ∀ node, view (change node) = view node) :
    Agree view network (network.modifyNode target change) := by
  intro id
  rw [node?_modifyNode]
  split
  · rw [Option.map_map]
    exact congrArg (Option.map · _) (funext same)
  · rfl

theorem agree_modifyNode_of_alive {network : Network} {target : NodeId} {node : Node}
    {change : Node → Node} (alive : network.node? target = some node)
    (same : view (change node) = view node) :
    Agree view network (network.modifyNode target change) := by
  intro id
  rw [node?_modifyNode]
  split
  next here =>
    subst here
    rw [alive]
    exact congrArg some same
  · rfl

/-- A change of a node shows in a view of it as a change of what is seen, provided that
the node is there or nothing would be seen to change. -/
theorem elim_modifyNode {network : Network} {target : NodeId} {change : Node → Node}
    {otherwise : β} (alter : β → β) (shows : ∀ node, view (change node) = alter (view node))
    (visible : network.Alive target ∨ alter otherwise = otherwise) (id : NodeId) :
    ((network.modifyNode target change).node? id).elim otherwise view =
      if id = target then alter ((network.node? id).elim otherwise view)
      else (network.node? id).elim otherwise view := by
  rw [node?_modifyNode]
  by_cases here : id = target
  · subst here
    rw [if_pos rfl, if_pos rfl]
    cases found : network.node? id with
    | none =>
        refine (visible.resolve_left ?_).symm
        rintro ⟨node, alive⟩
        rw [found] at alive
        cases alive
    | some node => exact shows node
  · rw [if_neg (Ne.symm here), if_neg here]

/-- Connecting an input shows only in the consumers of an output. -/
theorem agree_connect (network : Network) (source : OutputPort) (input : InputPort)
    (same : ∀ (node : Node) index change, view (node.reconsume index change) = view node) :
    Agree view network (network.connect source input) :=
  agree_modifyNode network source.node fun node => same node source.index (· ++ [input])

/-- Disconnecting an input shows only in the consumers of an output. -/
theorem agree_disconnect (network : Network) (source : OutputPort) (input : InputPort)
    (same : ∀ (node : Node) index change, view (node.reconsume index change) = view node) :
    Agree view network (network.disconnect source input) :=
  agree_modifyNode network source.node fun node => same node source.index (·.filter (· ≠ input))

/-- Connecting the inputs of a node shows only in a view that tells consumers at the node. -/
theorem agree_connectAll_of_consumer (network : Network) (id : NodeId)
    (sources : List OutputPort)
    (same : ∀ (node : Node) index (input : InputPort), input.node = id →
      view (node.reconsume index (· ++ [input])) = view node) :
    Agree view network (network.connectAll id sources) := by
  have atNode : ∀ edge ∈ edges id sources, edge.2.node = id := by
    intro edge member
    obtain ⟨index, below, rfl⟩ := List.mem_mapIdx.mp member
    rfl
  rw [connectAll]
  generalize edges id sources = pairs at atNode ⊢
  induction pairs generalizing network with
  | nil => exact .refl view network
  | cons edge pairs ih =>
      obtain ⟨here, others⟩ := List.forall_mem_cons.mp atNode
      have connected : Agree view network (network.connect edge.1 edge.2) :=
        agree_modifyNode network edge.1.node fun node => same node edge.1.index edge.2 here
      exact connected.trans (ih _ others)

theorem agree_connectAll (network : Network) (id : NodeId) (sources : List OutputPort)
    (same : ∀ (node : Node) index change, view (node.reconsume index change) = view node) :
    Agree view network (network.connectAll id sources) :=
  network.agree_connectAll_of_consumer id sources fun node index _ _ => same node index _

theorem agree_disconnectAll (network : Network) (id : NodeId) (sources : List OutputPort)
    (same : ∀ (node : Node) index change, view (node.reconsume index change) = view node) :
    Agree view network (network.disconnectAll id sources) := by
  rw [disconnectAll]
  induction edges id sources generalizing network with
  | nil => exact .refl view network
  | cons edge edges ih => exact (agree_disconnect network edge.1 edge.2 same).trans (ih _)

end Agreement

end Network
end TensorGraph
