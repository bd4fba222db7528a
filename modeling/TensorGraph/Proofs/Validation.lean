import Mathlib.Data.List.Nodup
import Mathlib.Data.List.Pairwise
import TensorGraph.Proofs.Inference

/-!
# Validation

A validation computes the schedule, infers the types of its nodes in turn and checks
declarations and names.  It succeeds exactly if nothing within reach of the graph is
on a cycle, without types by recursion, undeclared or named like another output, and
then stores the types by recursion, so that a second validation changes nothing.
-/

namespace TensorGraph

open Relation

namespace Network

/-- What a validation asks of the nodes within reach of a graph. -/
structure Sound (network : Network) (graph : Graph) : Prop where
  acyclic : ∀ id, network.Reaches graph.currentRoots id → ¬ TransGen network.DependsOn id id
  typed : ∀ id, network.Reaches graph.currentRoots id → ∃ types, network.HasTypes id types
  declared : ∀ id, network.Reaches graph.currentRoots id → network.isParameter id →
    id ∈ graph.parameters
  distinct : ∀ first second : OutputPort,
    network.Reaches graph.currentRoots first.node →
    network.Reaches graph.currentRoots second.node →
    network.isResult first.node = false → network.isResult second.node = false →
    ∀ name ∈ network.ownNames first, name ∈ network.ownNames second → first = second

/-- The checks of a validation after all types were inferred. -/
def check (network : Network) (graph : Graph) (nodes : List NodeId) : Except GraphError Unit :=
  match network.checkDeclared graph nodes with
  | .ok _ => network.checkUnique [] (network.namings (network.ownerPorts nodes))
  | .error error => .error error

section Checks

variable {network : Network}

/-- A check of several items in turn succeeds exactly if each succeeds. -/
theorem forM_eq_ok_iff {ε α : Type} {items : List α} {body : α → Except ε Unit} :
    items.forM body = .ok () ↔ ∀ item ∈ items, body item = .ok () := by
  induction items with
  | nil => simp [pure, Except.pure]
  | cons item items ih =>
      rw [List.forall_mem_cons, ← ih]
      change (body item >>= fun _ => items.forM body) = .ok () ↔ _
      cases body item with
      | error error => exact iff_of_false (fun ok => by cases ok) fun both => by cases both.1
      | ok _ => exact (and_iff_right rfl).symm

theorem checkDeclared_eq_ok_iff {graph : Graph} {nodes : List NodeId} :
    network.checkDeclared graph nodes = .ok () ↔
      ∀ node ∈ nodes, network.isParameter node → node ∈ graph.parameters := by
  rw [checkDeclared, forM_eq_ok_iff]
  apply forall₂_congr
  intro node _
  split
  next undeclared => simpa using undeclared
  next declared => simpa using declared

theorem checkUnique_eq_ok_iff {earlier later : List (String × OutputPort)} :
    network.checkUnique earlier later = .ok () ↔
      (later.map Prod.fst).Nodup ∧ ∀ naming ∈ later, ∀ other ∈ earlier, other.1 ≠ naming.1 := by
  induction later generalizing earlier with
  | nil => simp [checkUnique]
  | cons naming later ih =>
      obtain ⟨name, port⟩ := naming
      rw [checkUnique]
      cases taken : earlier.find? (·.1 = name) with
      | some other =>
          have member := List.mem_of_find?_eq_some taken
          have same : other.1 = name := by simpa using List.find?_some taken
          apply iff_of_false (fun ok => by cases ok)
          intro free
          exact free.2 (name, port) (List.mem_cons_self ..) other member same
      | none =>
          have free : ∀ other ∈ earlier, other.1 ≠ name := by simpa using taken
          simp only [ih, List.map_cons, List.nodup_cons, List.mem_map, List.forall_mem_cons]
          constructor
          · rintro ⟨nodup, apart⟩
            refine ⟨⟨?_, nodup⟩, free, fun naming member => (apart naming member).2⟩
            rintro ⟨naming, member, same⟩
            exact (apart naming member).1 same.symm
          · rintro ⟨⟨new, nodup⟩, -, apart⟩
            refine ⟨nodup, fun naming member => ⟨fun same => ?_, apart naming member⟩⟩
            exact new ⟨naming, member, same.symm⟩

theorem tensorOwner_of_not_result {port : OutputPort}
    (noResult : network.isResult port.node = false) : network.tensorOwner port = port := by
  rw [tensorOwner, noResult]
  rfl

theorem tensorNames_of_not_result {port : OutputPort}
    (noResult : network.isResult port.node = false) :
    network.tensorNames port = network.ownNames port := by
  rw [tensorNames, tensorOwner_of_not_result noResult]

/-- A result that reads an output of no result gives it out. -/
theorem tensorOwner_of_reads {port source : OutputPort} (result : network.isResult port.node)
    (reads : network.source? ⟨port.node, 0⟩ = some source)
    (noResult : network.isResult source.node = false) : network.tensorOwner port = source := by
  obtain ⟨node, found, -⟩ := alive_of_source? reads
  have alive : port.node ∈ network.nodes.ids := mem_ids.mpr ⟨node, found⟩
  have passes : network.aliased? port = some source := by rw [aliased?, if_pos result, reads]
  have stops : network.aliased? source = none := by
    rw [aliased?, noResult]
    rfl
  rw [tensorOwner, if_pos result, ownerAmong, passes]
  dsimp only
  rw [if_pos alive, ownerAmong, stops]

theorem mem_ownerPorts {nodes : List NodeId} {port : OutputPort} :
    port ∈ network.ownerPorts nodes ↔
      port.node ∈ nodes ∧ network.isResult port.node = false ∧
        port.index < network.outputCount port.node := by
  simp only [ownerPorts, outputPorts, List.mem_flatMap, List.mem_filter, List.mem_map,
    List.mem_range, Bool.not_eq_true']
  constructor
  · rintro ⟨node, ⟨member, noResult⟩, index, below, rfl⟩
    exact ⟨member, noResult, below⟩
  · rintro ⟨member, noResult, below⟩
    exact ⟨port.node, ⟨member, noResult⟩, port.index, below, rfl⟩

theorem nodup_ownerPorts {nodes : List NodeId} (nodup : nodes.Nodup) :
    (network.ownerPorts nodes).Nodup := by
  rw [ownerPorts, List.nodup_flatMap]
  constructor
  · intro node _
    exact List.nodup_range.map fun first second same => (OutputPort.mk.inj same).2
  · refine (nodup.filter _).imp fun {first second} different port inFirst inSecond => ?_
    simp only [outputPorts, List.mem_map] at inFirst inSecond
    obtain ⟨_, -, rfl⟩ := inFirst
    obtain ⟨_, -, same⟩ := inSecond
    exact different (OutputPort.mk.inj same).1.symm

theorem nodup_ownNames (regular : network.Regular) (port : OutputPort) :
    (network.ownNames port).Nodup := by
  rw [ownNames, tensor?]
  cases found : network.node? port.node with
  | none => exact List.nodup_nil
  | some node =>
      cases output : node.outputs[port.index]? with
      | none => simp [output]
      | some tensor =>
          have member := List.mem_map_of_mem (f := (·.names)) (List.mem_of_getElem? output)
          simp only [Option.bind_some, output, Option.elim_some]
          exact ((regular port.node node found).names tensor.names member).imp ne_of_lt

theorem lt_outputCount_of_mem_ownNames {port : OutputPort} {name : String}
    (member : name ∈ network.ownNames port) : port.index < network.outputCount port.node := by
  rw [ownNames, tensor?] at member
  rw [outputCount]
  cases found : network.node? port.node with
  | none => simp [found] at member
  | some node =>
      cases output : node.outputs[port.index]? with
      | none => simp [found, output] at member
      | some tensor => exact (List.getElem?_eq_some_iff.mp output).1

/-- No name is found twice exactly if no two outputs of nodes that are no results
carry one name. -/
theorem checkUnique_namings_eq_ok_iff (regular : network.Regular) {nodes : List NodeId}
    (nodup : nodes.Nodup) :
    network.checkUnique [] (network.namings (network.ownerPorts nodes)) = .ok () ↔
      ∀ first second : OutputPort, first.node ∈ nodes → second.node ∈ nodes →
        network.isResult first.node = false → network.isResult second.node = false →
        ∀ name ∈ network.ownNames first, name ∈ network.ownNames second → first = second := by
  have names : (network.namings (network.ownerPorts nodes)).map Prod.fst =
      (network.ownerPorts nodes).flatMap network.ownNames := by
    rw [namings, List.map_flatMap]
    apply List.flatMap_congr
    intro port member
    rw [List.map_map, tensorNames_of_not_result (mem_ownerPorts.mp member).2.1]
    exact List.map_id _
  have listed {port : OutputPort} (inside : port.node ∈ nodes)
      (noResult : network.isResult port.node = false) {name : String}
      (member : name ∈ network.ownNames port) : port ∈ network.ownerPorts nodes :=
    mem_ownerPorts.mpr ⟨inside, noResult, lt_outputCount_of_mem_ownNames member⟩
  rw [checkUnique_eq_ok_iff, names, List.nodup_flatMap]
  constructor
  · rintro ⟨⟨-, apart⟩, -⟩ first second inFirst inSecond noFirst noSecond name carries also
    have symmetric : Std.Symm (Function.onFun List.Disjoint network.ownNames) :=
      ⟨fun _ _ disjoint _ member also => disjoint also member⟩
    by_contra different
    exact apart.forall (listed inFirst noFirst carries) (listed inSecond noSecond also)
      different carries also
  · intro distinct
    refine ⟨⟨fun port _ => nodup_ownNames regular port, ?_⟩, by simp⟩
    refine (nodup_ownerPorts nodup).pairwise_of_forall_ne fun first inFirst second inSecond
      different name carries also => different ?_
    obtain ⟨memberFirst, noFirst, -⟩ := mem_ownerPorts.mp inFirst
    obtain ⟨memberSecond, noSecond, -⟩ := mem_ownerPorts.mp inSecond
    exact distinct first second memberFirst memberSecond noFirst noSecond name carries also

theorem check_eq_ok_iff {graph : Graph} {nodes : List NodeId} :
    network.check graph nodes = .ok () ↔
      network.checkDeclared graph nodes = .ok () ∧
        network.checkUnique [] (network.namings (network.ownerPorts nodes)) = .ok () := by
  rw [check]
  split
  next declared => simp [declared]
  next error refused => simp [refused]

end Checks

section Outcome

variable {network : Network} {id : GraphId} {graph : Graph}

/-- A fresh graph answers its schedule and changes nothing. -/
theorem on_schedule_of_fresh (found : network.graph? id = some graph) (isFresh : graph.isFresh) :
    (Edit.schedule id).on network = (.ok graph.schedule, network) := by
  rw [Edit.on_schedule, graph_of_graph? found, if_pos isFresh]

theorem storedTypes_schedule (network : Network) (id : GraphId) (node : NodeId) :
    ((Edit.schedule id).on network).2.storedTypes node = network.storedTypes node := by
  rw [Edit.on_schedule]
  split
  · rfl
  · split
    next nodes ordered =>
      have agree : Agree (·.outputs.map (·.type)) (network.recordRoots id)
          ((network.recordRoots id).storeSchedule id nodes) :=
        agree_storeSchedule _ _ _ fun _ _ => rfl
      exact agree.elim_eq node []
    · rfl

/-- After a schedule was answered, it is stored as fresh in the graph. -/
theorem graph?_schedule (found : network.graph? id = some graph) {nodes : List NodeId}
    {after : Network} (answered : (Edit.schedule id).on network = (.ok nodes, after)) :
    ∃ current, after.graph? id = some current ∧ current.isFresh ∧ current.schedule = nodes ∧
      current.frame = graph.frame := by
  rw [Edit.on_schedule, graph_of_graph? found] at answered
  split at answered
  next isFresh =>
    obtain ⟨same, rfl⟩ := Prod.mk.inj answered
    exact ⟨graph, found, isFresh, Except.ok.inj same, rfl⟩
  · split at answered
    next listed ordered =>
      obtain ⟨same, rfl⟩ := Prod.mk.inj answered
      obtain rfl : listed = nodes := Except.ok.inj same
      rw [graph?_storeSchedule, if_pos rfl, graph?_recordRoots, if_pos rfl, found]
      exact ⟨_, rfl, rfl, rfl, rfl⟩
    · cases (Prod.mk.inj answered).1

/-- A validation of a graph that is fresh: the inference pass and the checks. -/
theorem on_validate_of_fresh (regular : network.Regular) (found : network.graph? id = some graph)
    (isFresh : graph.isFresh) :
    (Edit.validate id).on network =
      match (graph.schedule.forM Edit.inferNode).on network with
      | (.ok _, after) => (after.check graph graph.schedule, after)
      | (.error error, after) => (.error error, after) := by
  rw [Edit.validate, Edit.on_bind, on_schedule_of_fresh found isFresh]
  dsimp only
  rw [Edit.on_bind]
  have pass := retyped_forM_inferNode regular graph.schedule
  rcases outcome : (graph.schedule.forM Edit.inferNode).on network with ⟨result, after⟩
  rw [outcome] at pass
  cases result with
  | error error => rfl
  | ok _ =>
      have still : after.graph? id = some graph := (pass.graphs id).trans found
      dsimp only
      rw [Edit.on_bind, Edit.checkDeclared, Edit.on_bind, on_schedule_of_fresh still isFresh]
      dsimp only
      rw [Edit.on_ask, graph_of_graph? still, check]
      cases after.checkDeclared graph graph.schedule with
      | error error => rfl
      | ok _ => exact Edit.on_ask _ after

theorem on_validate_of_refused {error : GraphError} {after : Network}
    (refused : (Edit.schedule id).on network = (.error error, after)) :
    (Edit.validate id).on network = (.error error, after) := by
  rw [Edit.validate, Edit.on_bind, refused]

theorem on_validate_of_answered (found : network.graph? id = some graph) {nodes : List NodeId}
    {after : Network} (answered : (Edit.schedule id).on network = (.ok nodes, after)) :
    (Edit.validate id).on network = (Edit.validate id).on after := by
  obtain ⟨current, known, isFresh, rfl, -⟩ := graph?_schedule found answered
  rw [Edit.validate, Edit.on_bind, Edit.on_bind, answered, on_schedule_of_fresh known isFresh]

/-- A validation is refused for want of an order, or comes down to one of a fresh
graph in a network that differs in schedules and memberships only. -/
theorem Coherent.validate_cases (coherent : network.Coherent) (regular : network.Regular)
    (found : network.graph? id = some graph) :
    (∃ error after, network.order graph.currentRoots = .error error ∧
      (Edit.validate id).on network = (.error error, after) ∧ Keeps network after ∧
      ∀ node, after.storedTypes node = network.storedTypes node) ∨
    ∃ nodes scheduled current, network.order graph.currentRoots = .ok nodes ∧
      Keeps network scheduled ∧ scheduled.Coherent ∧ scheduled.Regular ∧
      (∀ node, scheduled.storedTypes node = network.storedTypes node) ∧
      scheduled.graph? id = some current ∧ current.isFresh ∧ current.schedule = nodes ∧
      current.frame = graph.frame ∧
      (Edit.validate id).on network = (Edit.validate id).on scheduled := by
  have ordered := coherent.fst_schedule found
  have keeps := Keeps.of_schedule network id
  have stored := storedTypes_schedule network id
  have moves := Edit.follows_schedule id network
  rcases outcome : (Edit.schedule id).on network with ⟨error | nodes, after⟩ <;>
    rw [outcome] at ordered keeps stored moves
  · exact Or.inl ⟨error, after, ordered.symm, on_validate_of_refused outcome, keeps, stored⟩
  · obtain ⟨current, known, isFresh, same, frame⟩ := graph?_schedule found outcome
    exact Or.inr ⟨nodes, after, current, ordered.symm, keeps, coherent.of_moves moves,
      regular.of_moves moves, stored, known, isFresh, same, frame,
      on_validate_of_answered found outcome⟩

end Outcome

section Transfer

variable {before after : Network}

theorem Keeps.isResult (keeps : Keeps before after) (id : NodeId) :
    after.isResult id = before.isResult id := by
  rw [Network.isResult, keeps.role?, Network.isResult]

theorem Keeps.isParameter (keeps : Keeps before after) (id : NodeId) :
    after.isParameter id = before.isParameter id := by
  rw [Network.isParameter, keeps.role?, Network.isParameter]

theorem ownNames_eq_elim (network : Network) (port : OutputPort) :
    network.ownNames port =
      ((network.node? port.node).elim [] fun node => node.outputs.map (·.names)).getD
        port.index [] := by
  rw [ownNames, tensor?]
  cases network.node? port.node with
  | none => rfl
  | some node =>
      simp only [Option.bind_some, Option.elim_some, List.getD_eq_getElem?_getD,
        List.getElem?_map]
      cases node.outputs[port.index]? <;> rfl

theorem Agree.ownNames_eq (agree : Agree (fun node => node.outputs.map (·.names)) before after)
    (port : OutputPort) : after.ownNames port = before.ownNames port := by
  rw [ownNames_eq_elim, ownNames_eq_elim, agree.elim_eq port.node []]

theorem Keeps.ownNames (keeps : Keeps before after) (port : OutputPort) :
    after.ownNames port = before.ownNames port := by
  have names : Agree (fun node => node.outputs.map (·.names)) before after := by
    simpa only [Node.skeleton, List.map_map, Function.comp_def] using
      keeps.nodes.map fun node => node.outputs.map (·.names)
  exact names.ownNames_eq port

theorem Keeps.hasTypes_iff (keeps : Keeps before after) {id : NodeId} {types : List TensorType} :
    after.HasTypes id types ↔ before.HasTypes id types :=
  ⟨.of_agree keeps.symm.wiring, .of_agree keeps.wiring⟩

end Transfer

section Fresh

variable {network : Network} {id : GraphId} {graph : Graph}

theorem Coherent.sequenced (coherent : network.Coherent) (found : network.graph? id = some graph)
    (isFresh : graph.isFresh) : network.Sequenced [] graph.schedule :=
  (coherent.ordered_schedule found isFresh).sequenced (coherent.schedule id graph found)

/-- What a pass that comes to its end stores are the types by recursion of its nodes. -/
theorem hasTypes_of_forM_inferNode (regular : network.Regular) {nodes : List NodeId}
    (sequenced : network.Sequenced [] nodes) {after : Network}
    (ended : (nodes.forM Edit.inferNode).on network = (.ok (), after)) :
    ∀ id ∈ nodes, network.HasTypes id (after.storedTypes id) := by
  have pass := retyped_forM_inferNode regular nodes
  rw [ended] at pass
  have solves := solves_of_forM_inferNode regular sequenced ended
  intro id member
  apply pass.keeps.hasTypes_iff.mp
  exact solves.hasTypes (sequenced.of_keeps pass.keeps) (by simp) id member

/-- A pass comes to its end exactly if all its nodes have types by recursion. -/
theorem forM_inferNode_ok_iff (regular : network.Regular) {nodes : List NodeId}
    (sequenced : network.Sequenced [] nodes)
    (closed : ∀ id ∈ nodes, ∀ dependency ∈ network.dependencies id, dependency ∈ nodes) :
    ((nodes.forM Edit.inferNode).on network).1 = .ok () ↔
      ∀ id ∈ nodes, ∃ types, network.HasTypes id types := by
  constructor
  · intro ended id member
    rcases outcome : (nodes.forM Edit.inferNode).on network with ⟨result, after⟩
    rw [outcome] at ended
    obtain rfl : result = .ok () := ended
    exact ⟨_, hasTypes_of_forM_inferNode regular sequenced outcome id member⟩
  · intro typed
    obtain ⟨types, solves⟩ := exists_solves closed typed
    obtain ⟨after, ended, -⟩ := forM_inferNode_of_solves regular sequenced solves (by simp)
    rw [ended]

/-- The validation of a fresh graph. -/
theorem Coherent.validate_ok_iff_of_fresh (coherent : network.Coherent) (regular : network.Regular)
    (found : network.graph? id = some graph) (isFresh : graph.isFresh) :
    ((Edit.validate id).on network).1 = .ok () ↔
      (∀ node ∈ graph.schedule, ∃ types, network.HasTypes node types) ∧
      (∀ node ∈ graph.schedule, network.isParameter node → node ∈ graph.parameters) ∧
      ∀ first second : OutputPort, first.node ∈ graph.schedule → second.node ∈ graph.schedule →
        network.isResult first.node = false → network.isResult second.node = false →
        ∀ name ∈ network.ownNames first, name ∈ network.ownNames second → first = second := by
  have ordered := coherent.ordered_schedule found isFresh
  have sequenced := coherent.sequenced found isFresh
  have typed := forM_inferNode_ok_iff regular sequenced fun node member dependency depends =>
    ordered.mem_of_dependency member depends
  have pass := retyped_forM_inferNode regular graph.schedule
  have stillRegular := regular_forM_inferNode regular graph.schedule
  rw [on_validate_of_fresh regular found isFresh, ← typed]
  rcases outcome : (graph.schedule.forM Edit.inferNode).on network with ⟨result, after⟩
  rw [outcome] at pass stillRegular
  cases result with
  | error error => simp
  | ok _ =>
      have keeps := pass.keeps
      have checked : after.check graph graph.schedule = .ok () ↔ _ :=
        check_eq_ok_iff.trans (and_congr checkDeclared_eq_ok_iff
          (checkUnique_namings_eq_ok_iff stillRegular ordered.nodup))
      simp only [keeps.isParameter, keeps.isResult, keeps.ownNames] at checked
      exact checked.trans (and_iff_right rfl).symm

/-- A validation of a fresh graph that succeeds stores types by recursion, and the next
one changes nothing. -/
theorem Coherent.validated_of_fresh (coherent : network.Coherent) (regular : network.Regular)
    (found : network.graph? id = some graph) (isFresh : graph.isFresh) {after : Network}
    (validated : (Edit.validate id).on network = (.ok (), after)) :
    (∀ node ∈ graph.schedule, network.HasTypes node (after.storedTypes node)) ∧
      (Edit.validate id).on after = (.ok (), after) := by
  have sequenced := coherent.sequenced found isFresh
  have pass := retyped_forM_inferNode regular graph.schedule
  have stillRegular := regular_forM_inferNode regular graph.schedule
  rw [on_validate_of_fresh regular found isFresh] at validated
  rcases outcome : (graph.schedule.forM Edit.inferNode).on network with ⟨result, later⟩
  rw [outcome] at pass stillRegular validated
  cases result with
  | error error => cases (Prod.mk.inj validated).1
  | ok _ =>
      obtain ⟨checked, rfl⟩ := Prod.mk.inj validated
      have solves := solves_of_forM_inferNode regular sequenced outcome
      have alive (node : NodeId) (member : node ∈ graph.schedule) : later.Alive node :=
        (pass.keeps.alive_iff node).mpr (coherent.schedule id graph found node member)
      refine ⟨hasTypes_of_forM_inferNode regular sequenced outcome, ?_⟩
      rw [on_validate_of_fresh stillRegular ((pass.graphs id).trans found) isFresh,
        forM_inferNode_of_upToDate alive (upToDate_of_solves solves)]
      exact Prod.ext checked rfl

end Fresh

variable {network : Network} {id : GraphId} {graph : Graph}

theorem Coherent.mem_iff_reaches (coherent : network.Coherent)
    (found : network.graph? id = some graph) {nodes : List NodeId}
    (ordered : network.order graph.currentRoots = .ok nodes) (node : NodeId) :
    node ∈ nodes ↔ network.Reaches graph.currentRoots node :=
  (coherent.ordered found ordered).mem_iff node

/-- A graph with an order is sound if the nodes of the order pass the inference and the
checks. -/
theorem Coherent.sound_iff (coherent : network.Coherent) (found : network.graph? id = some graph)
    {nodes : List NodeId} (ordered : network.order graph.currentRoots = .ok nodes) :
    network.Sound graph ↔
      (∀ node ∈ nodes, ∃ types, network.HasTypes node types) ∧
      (∀ node ∈ nodes, network.isParameter node → node ∈ graph.parameters) ∧
      ∀ first second : OutputPort, first.node ∈ nodes → second.node ∈ nodes →
        network.isResult first.node = false → network.isResult second.node = false →
        ∀ name ∈ network.ownNames first, name ∈ network.ownNames second → first = second := by
  simp only [coherent.mem_iff_reaches found ordered]
  constructor
  · intro sound
    exact ⟨sound.typed, sound.declared, sound.distinct⟩
  · rintro ⟨typed, declared, distinct⟩
    refine ⟨fun node reached => ?_, typed, declared, distinct⟩
    have listed := coherent.ordered found ordered
    exact listed.acyclic node ((listed.mem_iff node).mpr reached)

theorem Coherent.not_sound_of_refused (coherent : network.Coherent)
    (found : network.graph? id = some graph) {error : GraphError}
    (refused : network.order graph.currentRoots = .error error) : ¬ network.Sound graph := by
  intro sound
  rcases order_cases coherent.dependencies (coherent.alive_of_mem_currentRoots found) with
    ⟨nodes, ordered, -⟩ | ⟨node, -, reached, cycle⟩
  · rw [refused] at ordered
    cases ordered
  · exact sound.acyclic node reached cycle

theorem Coherent.validate_ok_iff (coherent : network.Coherent) (regular : network.Regular)
    (found : network.graph? id = some graph) :
    ((Edit.validate id).on network).1 = .ok () ↔ network.Sound graph := by
  rcases coherent.validate_cases regular found with
    ⟨error, after, refused, outcome, -, -⟩ |
    ⟨nodes, scheduled, current, ordered, keeps, stillCoherent, stillRegular, -, known, isFresh,
      rfl, frame, outcome⟩
  · rw [outcome]
    exact iff_of_false (by simp) (coherent.not_sound_of_refused found refused)
  · rw [outcome, stillCoherent.validate_ok_iff_of_fresh stillRegular known isFresh,
      coherent.sound_iff found ordered]
    have parameters : current.parameters = graph.parameters := congrArg (·.2.1) frame
    simp only [keeps.hasTypes_iff, keeps.isParameter, keeps.isResult, keeps.ownNames, parameters]

/-- What a successful validation stores are the types by recursion of all nodes within
reach, and a second validation changes nothing. -/
theorem Coherent.validated (coherent : network.Coherent) (regular : network.Regular)
    (found : network.graph? id = some graph) {after : Network}
    (validated : (Edit.validate id).on network = (.ok (), after)) :
    (∀ node, network.Reaches graph.currentRoots node →
      network.HasTypes node (after.storedTypes node)) ∧
    (Edit.validate id).on after = (.ok (), after) := by
  rcases coherent.validate_cases regular found with
    ⟨error, refusedAfter, -, outcome, -, -⟩ |
    ⟨nodes, scheduled, current, ordered, keeps, stillCoherent, stillRegular, -, known, isFresh,
      rfl, -, outcome⟩
  · rw [outcome] at validated
    cases validated
  · rw [outcome] at validated
    obtain ⟨typed, again⟩ := stillCoherent.validated_of_fresh stillRegular known isFresh validated
    refine ⟨fun node reached => keeps.hasTypes_iff.mp (typed node ?_), again⟩
    exact (coherent.mem_iff_reaches found ordered node).mpr reached

end Network

namespace Session

variable {session : Session}

/-- A validation succeeds exactly if no cycle is within reach of the graph, every node
within reach has types by recursion, every parameter among them is declared, and no
name is carried by two of their outputs.  It then stores these types, whatever was
stored before, and a second validation changes nothing. -/
theorem Reachable.validate_exact (reachable : session.Reachable) {id : GraphId} {graph : Graph}
    (found : session.network.graph? id = some graph) :
    (((Edit.validate id).on session.network).1 = .ok () ↔ session.network.Sound graph) ∧
    ∀ after, (Edit.validate id).on session.network = (.ok (), after) →
      (∀ node, session.network.Reaches graph.currentRoots node →
        ∀ types, session.network.HasTypes node types ↔ after.storedTypes node = types) ∧
      (Edit.validate id).on after = (.ok (), after) := by
  have coherent := reachable.coherent
  refine ⟨coherent.validate_ok_iff reachable.regular found, fun after validated => ?_⟩
  obtain ⟨typed, again⟩ := coherent.validated reachable.regular found validated
  refine ⟨fun node reached types => ⟨fun has => ?_, fun stored => ?_⟩, again⟩
  · exact (typed node reached).unique has
  · exact stored ▸ typed node reached

theorem sound_rerouted :
    ∃ graph, rerouted.network.graph? 1 = some graph ∧ rerouted.network.Sound graph ∧
      (Edit.validate 1).on ((Edit.validate 1).on rerouted.network).2 =
        (.ok (), ((Edit.validate 1).on rerouted.network).2) := by
  have succeeds : ((Edit.validate 1).on rerouted.network).1 = .ok () := by cbv
  obtain ⟨found, -⟩ := graph?_rerouted
  obtain ⟨succeeds_iff, stores⟩ := rerouted_reachable.validate_exact found
  have outcome {result : Except GraphError Unit × Network} (ok : result.1 = .ok ()) :
      result = (.ok (), result.2) :=
    Prod.ext ok rfl
  exact ⟨_, found, succeeds_iff.mp succeeds, (stores _ (outcome succeeds)).2⟩

end Session
end TensorGraph
