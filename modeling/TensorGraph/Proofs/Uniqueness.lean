import TensorGraph.Proofs.Conflicts

/-!
# Unique names

In a graph that is sound, every port within reach gives out the tensor of a port within
reach that is no result, so a name leads to one tensor at most, however it is looked up.
A naming in a fresh graph is refused if it would take a name of another tensor within
reach; so once a graph was validated, it stays sound along any run of namings.
-/

namespace TensorGraph

open Relation

namespace Network

section Owner

variable {network : Network} {roots : List NodeId}

theorem dependsOn_of_source? {input : InputPort} {source : OutputPort}
    (reads : network.source? input = some source) : network.DependsOn input.node source.node := by
  obtain ⟨node, alive, found⟩ := alive_of_source? reads
  exact mem_dependencies_of_source alive (List.mem_of_getElem? found)

theorem operator_of_isResult {id : NodeId} {node : Node} (alive : network.node? id = some node)
    (isResult : network.isResult id) : node.operator = .result := by
  have role : node.operator.role = .result := by
    simpa [Network.isResult, role?, alive] using isResult
  cases kind : node.operator <;> simp_all [Operator.role]

/-- A result that has types reads an output. -/
theorem HasTypes.exists_source {id : NodeId} {types : List TensorType}
    (typed : network.HasTypes id types) (isResult : network.isResult id) :
    ∃ source, network.source? ⟨id, 0⟩ = some source := by
  cases typed with
  | @intro _ node _ typesOf alive sourcesTyped inferred =>
      have operator := operator_of_isResult alive isResult
      rw [operator] at inferred
      cases sources : node.sources with
      | nil =>
          rw [sources] at inferred
          cases inferred
      | cons source others => exact ⟨source, by simp [source?, Network.sources, alive, sources]⟩

theorem dependsOn_of_aliased? {port source : OutputPort}
    (aliased : network.aliased? port = some source) :
    network.DependsOn port.node source.node := by
  rw [aliased?] at aliased
  split at aliased
  · exact dependsOn_of_source? aliased
  · cases aliased

/-- A list that covers what a node on no cycle depends on covers what its dependency depends on
without the node. -/
theorem covered_erase {id dependency : NodeId} {remaining : List NodeId}
    (acyclic : ¬ TransGen network.DependsOn id id) (depends : network.DependsOn id dependency)
    (covered : ∀ other, ReflTransGen network.DependsOn id other → other ∈ remaining) :
    ∀ other, ReflTransGen network.DependsOn dependency other → other ∈ remaining.erase id := by
  intro other path
  have apart : other ≠ id := by
    rintro rfl
    exact acyclic (.head' depends path)
  exact (List.mem_erase_of_ne apart).mpr (covered other (.head depends path))

theorem tensorOwner_eq_ownerAmong (network : Network) (port : OutputPort) :
    network.tensorOwner port = network.ownerAmong network.nodes.ids port := by
  rw [tensorOwner]
  split
  · rfl
  next noResult => rw [ownerAmong, aliased?, if_neg noResult]

/-- Where nothing is on a cycle and every node has types, following results ends at a
node within reach that is no result. -/
theorem ownerAmong_spec
    (acyclic : ∀ id, network.Reaches roots id → ¬ TransGen network.DependsOn id id)
    (typed : ∀ id, network.Reaches roots id → ∃ types, network.HasTypes id types)
    {remaining : List NodeId} {port : OutputPort}
    (covered : ∀ id, ReflTransGen network.DependsOn port.node id → id ∈ remaining)
    (reached : network.Reaches roots port.node) :
    network.Reaches roots (network.ownerAmong remaining port).node ∧
      network.isResult (network.ownerAmong remaining port).node = false := by
  fun_induction ownerAmong network remaining port with
  | case1 remaining port unaliased =>
      refine ⟨reached, ?_⟩
      by_contra isResult
      rw [Bool.not_eq_false] at isResult
      obtain ⟨types, has⟩ := typed _ reached
      obtain ⟨source, reads⟩ := has.exists_source isResult
      rw [aliased?, if_pos isResult, reads] at unaliased
      cases unaliased
  | case2 remaining port source aliased member ih =>
      have depends := dependsOn_of_aliased? aliased
      exact ih (covered_erase (acyclic _ reached) depends covered) (reached.step depends)
  | case3 remaining port source aliased absent => exact absurd (covered _ .refl) absent

/-- Following results comes to the same end in another network where the results within reach
give out the same. -/
theorem ownerAmong_congr {after : Network}
    (acyclic : ∀ id, network.Reaches roots id → ¬ TransGen network.DependsOn id id)
    (same : ∀ port : OutputPort, network.Reaches roots port.node →
      after.aliased? port = network.aliased? port)
    {remaining others : List NodeId} {port : OutputPort}
    (covered : ∀ id, ReflTransGen network.DependsOn port.node id → id ∈ remaining)
    (alsoCovered : ∀ id, ReflTransGen network.DependsOn port.node id → id ∈ others)
    (reached : network.Reaches roots port.node) :
    after.ownerAmong others port = network.ownerAmong remaining port := by
  fun_induction ownerAmong network remaining port generalizing others with
  | case1 remaining port unaliased => rw [ownerAmong, same port reached, unaliased]
  | case2 remaining port source aliased member ih =>
      have depends := dependsOn_of_aliased? aliased
      have apart := acyclic _ reached
      rw [ownerAmong, same port reached, aliased]
      dsimp only
      rw [if_pos (alsoCovered _ .refl)]
      exact ih (covered_erase apart depends covered) (covered_erase apart depends alsoCovered)
        (reached.step depends)
  | case3 remaining port source aliased absent => exact absurd (covered _ .refl) absent

variable {graph : Graph}

theorem alive_of_path (closed : ∀ id, ∀ dependency ∈ network.dependencies id,
    network.Alive dependency) {id other : NodeId} (alive : network.Alive id)
    (path : ReflTransGen network.DependsOn id other) : network.Alive other := by
  cases path with
  | refl => exact alive
  | tail _ depends => exact closed _ _ depends

/-- The owner of the names of a port within reach is within reach and no result. -/
theorem Sound.owner (sound : network.Sound graph)
    (closed : ∀ id, ∀ dependency ∈ network.dependencies id, network.Alive dependency)
    {port : OutputPort} (reached : network.Reaches graph.currentRoots port.node) :
    network.Reaches graph.currentRoots (network.tensorOwner port).node ∧
      network.isResult (network.tensorOwner port).node = false := by
  obtain ⟨types, ⟨typesOf, alive, -⟩⟩ := sound.typed _ reached
  rw [tensorOwner_eq_ownerAmong]
  refine ownerAmong_spec sound.acyclic sound.typed (fun id path => ?_) reached
  exact mem_ids.mpr (alive_of_path closed ⟨_, alive⟩ path)

end Owner

section LookUp

variable {network : Network} {graph : Graph}

theorem mem_portsNamed {nodes : List NodeId} {name : String} {port : OutputPort} :
    port ∈ network.portsNamed nodes name ↔
      port.node ∈ nodes ∧ network.isResult port.node = false ∧ name ∈ network.ownNames port := by
  rw [portsNamed, List.mem_filter, mem_ownerPorts, hasName, decide_eq_true_eq]
  constructor
  · rintro ⟨⟨member, noResult, -⟩, carries⟩
    rw [tensorNames_of_not_result noResult] at carries
    exact ⟨member, noResult, carries⟩
  · rintro ⟨member, noResult, carries⟩
    rw [tensorNames_of_not_result noResult]
    exact ⟨⟨member, noResult, lt_outputCount_of_mem_ownNames carries⟩, carries⟩

variable (sound : network.Sound graph)
  (closed : ∀ id, ∀ dependency ∈ network.dependencies id, network.Alive dependency)

include sound closed

/-- Two ports within reach that have one name give out one tensor. -/
theorem Sound.tensorOwner_eq {first second : OutputPort}
    (inFirst : network.Reaches graph.currentRoots first.node)
    (inSecond : network.Reaches graph.currentRoots second.node) {name : String}
    (carries : network.hasName first name) (also : network.hasName second name) :
    network.tensorOwner first = network.tensorOwner second := by
  obtain ⟨reachedFirst, noFirst⟩ := sound.owner closed inFirst
  obtain ⟨reachedSecond, noSecond⟩ := sound.owner closed inSecond
  exact sound.distinct _ _ reachedFirst reachedSecond noFirst noSecond name
    (of_decide_eq_true carries) (of_decide_eq_true also)

/-- No look-up by name among nodes within reach finds two tensors. -/
theorem Sound.portNamed_ne_conflict {nodes : List NodeId}
    (within : ∀ node ∈ nodes, network.Reaches graph.currentRoots node) (name : String)
    (conflict : NamingConflict) :
    network.portNamed nodes name ≠ .error (.nameConflict conflict) := by
  have listed (port : OutputPort)
      (member : port ∈ (nodes.map firstOutput).filter (network.hasName · name)) :
      network.Reaches graph.currentRoots port.node ∧ network.hasName port name := by
    obtain ⟨inNodes, carries⟩ := List.mem_filter.mp member
    obtain ⟨node, inside, rfl⟩ := List.mem_map.mp inNodes
    exact ⟨within node inside, carries⟩
  rw [portNamed]
  split
  · simp
  next first others found =>
    rw [found] at listed
    obtain ⟨inFirst, carries⟩ := listed first (List.mem_cons_self ..)
    have single : (others.map network.tensorOwner).find? (· ≠ network.tensorOwner first) =
        none := by
      rw [List.find?_eq_none]
      intro owner member
      obtain ⟨port, inOthers, rfl⟩ := List.mem_map.mp member
      obtain ⟨inPort, also⟩ := listed port (List.mem_cons_of_mem _ inOthers)
      simpa using sound.tensorOwner_eq closed inPort inFirst also carries
    dsimp only
    rw [single]
    simp

omit closed in
/-- A name singles out one output among nodes within reach, unless none has it. -/
theorem Sound.resolveTarget_tensor {nodes : List NodeId} (nodup : nodes.Nodup)
    (within : ∀ node ∈ nodes, network.Reaches graph.currentRoots node) (name : String) :
    network.portsNamed nodes name = [] ∧
      network.resolveTarget nodes (.tensor name) = .error (.nameNotFound name) ∨
    ∃ port ∈ network.portsNamed nodes name,
      network.resolveTarget nodes (.tensor name) = .ok port := by
  have once : (network.portsNamed nodes name).Nodup := (nodup_ownerPorts nodup).filter _
  rw [resolveTarget]
  split
  next none => exact Or.inl ⟨none, rfl⟩
  next port found => exact Or.inr ⟨port, by simp [found], rfl⟩
  next ports empty single =>
    exfalso
    cases found : network.portsNamed nodes name with
    | nil => exact empty found
    | cons first others =>
        cases others with
        | nil => exact single first found
        | cons second others =>
            have listed (port : OutputPort) (member : port ∈ first :: second :: others) :
                port.node ∈ nodes ∧ network.isResult port.node = false ∧
                  name ∈ network.ownNames port :=
              mem_portsNamed.mp (found ▸ member)
            obtain ⟨inFirst, noFirst, carries⟩ := listed first (by simp)
            obtain ⟨inSecond, noSecond, also⟩ := listed second (by simp)
            have same := sound.distinct first second (within _ inFirst) (within _ inSecond)
              noFirst noSecond name carries also
            rw [found] at once
            simp [same] at once

end LookUp

section AddOutput

variable {network : Network}

theorem exists_reader? {port : OutputPort} {results : List NodeId}
    (read : ∀ result ∈ results, ∃ source, network.source? ⟨result, 0⟩ = some source) :
    ∃ found, network.reader? port results = .ok found := by
  induction results with
  | nil => exact ⟨none, rfl⟩
  | cons result results ih =>
      obtain ⟨⟨source, reads⟩, rest⟩ := List.forall_mem_cons.mp read
      rw [reader?, reads]
      dsimp only
      split
      · exact ⟨_, rfl⟩
      · exact ih rest

/-- A graph gives out the one output within reach that has a name, unless there is none. -/
theorem Sound.givesOut_tensor {id : GraphId} {graph : Graph} (sound : network.Sound graph)
    (coherent : network.Coherent) (found : network.graph? id = some graph)
    (isFresh : graph.isFresh) (name : String) :
    network.portsNamed graph.schedule name = [] ∧
      (Edit.addOutput id (.tensor name)).on network = (.error (.nameNotFound name), network) ∨
    ∃ port ∈ network.portsNamed graph.schedule name, ∃ output after,
      Edit.GivesOut id network port output after ∧
        (Edit.addOutput id (.tensor name)).on network = (.ok output, after) := by
  have ordered := coherent.ordered_schedule found isFresh
  have answered := on_schedule_of_fresh found isFresh
  rcases sound.resolveTarget_tensor ordered.nodup
    (fun node member => (ordered.mem_iff node).mp member) name with
    ⟨none, unknown⟩ | ⟨port, member, resolved⟩
  · exact Or.inl ⟨none, Edit.on_addOutput_of_unresolved answered unknown⟩
  · refine Or.inr ⟨port, member, ?_⟩
    obtain ⟨-, noResult, carries⟩ := mem_portsNamed.mp member
    have read (result : NodeId) (member : result ∈ graph.results) :
        ∃ source, network.source? ⟨result, 0⟩ = some source := by
      have reached : network.Reaches graph.currentRoots result :=
        reaches_of_mem_boundary .results member
      obtain ⟨types, typed⟩ := sound.typed result reached
      apply typed.exists_source
      rw [isResult, coherent.boundary id graph found .results result member]
      rfl
    have answer := Edit.on_addOutput_of_resolved answered resolved
    rw [noResult, if_neg Bool.false_ne_true] at answer
    rw [← graph_of_graph? found] at read
    obtain ⟨reader, reads⟩ : ∃ found, network.reader? port (network.graph id).results = .ok found :=
      exists_reader? read
    rw [reads] at answer
    cases reader with
    | some result => exact ⟨_, _, .read noResult reads, answer⟩
    | none =>
        have valid := lt_outputCount_of_mem_ownNames carries
        dsimp only at answer
        rw [if_pos valid] at answer
        exact ⟨_, _, .added noResult reads valid, answer⟩

/-- Giving out a tensor by its name succeeds, unless nothing within reach has the
name. -/
theorem Sound.addOutput_tensor {id : GraphId} {graph : Graph} (sound : network.Sound graph)
    (coherent : network.Coherent) (found : network.graph? id = some graph)
    (isFresh : graph.isFresh) (name : String) :
    ((Edit.addOutput id (.tensor name)).on network).1 = .error (.nameNotFound name) ∨
    ∃ port, ((Edit.addOutput id (.tensor name)).on network).1 = .ok port := by
  rcases sound.givesOut_tensor coherent found isFresh name with
    ⟨-, unknown⟩ | ⟨-, -, output, after, -, given⟩
  · exact Or.inl (congrArg Prod.fst unknown)
  · exact Or.inr ⟨output, congrArg Prod.fst given⟩

end AddOutput

section Preservation

variable {before after : Network} {graph : Graph}

/-- A sound graph stays sound while no node within reach changes what it depends on,
computes or reads, as long as the names there stay apart. -/
theorem Sound.of_local (sound : before.Sound graph)
    (dependencies : ∀ id, before.Reaches graph.currentRoots id →
      after.dependencies id = before.dependencies id)
    (wirings : ∀ id, before.Reaches graph.currentRoots id →
      (after.node? id).map wiring = (before.node? id).map wiring)
    (distinct : ∀ first second : OutputPort, before.Reaches graph.currentRoots first.node →
      before.Reaches graph.currentRoots second.node → before.isResult first.node = false →
      before.isResult second.node = false →
      ∀ name ∈ after.ownNames first, name ∈ after.ownNames second → first = second) :
    after.Sound graph := by
  have reaches {id : NodeId} :
      after.Reaches graph.currentRoots id ↔ before.Reaches graph.currentRoots id :=
    reaches_congr dependencies
  have roles {id : NodeId} (reached : before.Reaches graph.currentRoots id) :
      after.role? id = before.role? id := by
    have same := congrArg (Option.map fun wires => wires.1.role) (wirings id reached)
    rwa [Option.map_map, Option.map_map] at same
  refine
    { acyclic := fun id reached cycle => ?_, typed := fun id reached => ?_,
      declared := fun id reached isParameter => ?_,
      distinct := fun first second inFirst inSecond noFirst noSecond => ?_ } <;>
    rw [reaches] at *
  · exact sound.acyclic id reached (transGen_of_reaches dependencies reached cycle).1
  · obtain ⟨types, typed⟩ := sound.typed id reached
    exact ⟨types, typed.of_local wirings (fun _ inside _ depends => inside.step depends) reached⟩
  · rw [Network.isParameter, roles reached] at isParameter
    exact sound.declared id reached isParameter
  · rw [isResult, roles inFirst] at noFirst
    rw [isResult, roles inSecond] at noSecond
    exact distinct first second inFirst inSecond noFirst noSecond

variable {network : Network}

/-- Giving names that are free where the owner is within reach keeps a graph sound. -/
theorem Sound.of_renamed (sound : network.Sound graph) {owner : OutputPort} {given : NameSet}
    {update : NameSet → NameSet}
    (free : network.Reaches graph.currentRoots owner.node →
      network.Free graph.currentRoots owner given)
    (gives : ∀ names, ∀ name ∈ update names, name ∈ given ∨ name ∈ names) :
    (network.renamed owner update).Sound graph := by
  refine sound.of_local (fun id _ => network.dependencies_renamed owner update id)
    (fun id _ => (network.agree_renamed owner update).map wiring id) ?_
  have apart {other : OutputPort} (different : other ≠ owner)
      (reached : network.Reaches graph.currentRoots owner.node)
      (noResult : network.isResult owner.node = false)
      (inOther : network.Reaches graph.currentRoots other.node)
      (noOther : network.isResult other.node = false) {name : String}
      (carries : name ∈ (network.renamed owner update).ownNames owner)
      (also : name ∈ network.ownNames other) : False := by
    rcases gives _ name (network.mem_ownNames_renamed owner update carries) with new | old
    · exact free reached other different noOther inOther name new also
    · exact different (sound.distinct other owner inOther reached noOther noResult name also old)
  intro first second inFirst inSecond noFirst noSecond name carries also
  by_cases isFirst : first = owner
  · by_contra different
    rw [isFirst] at inFirst noFirst carries different
    rw [network.ownNames_renamed_of_ne owner update (Ne.symm different)] at also
    exact apart (Ne.symm different) inFirst noFirst inSecond noSecond carries also
  · rw [network.ownNames_renamed_of_ne owner update isFirst] at carries
    by_cases isSecond : second = owner
    · rw [isSecond] at inSecond noSecond also
      exact (apart isFirst inSecond noSecond inFirst noFirst also carries).elim
    · rw [network.ownNames_renamed_of_ne owner update isSecond] at also
      exact sound.distinct first second inFirst inSecond noFirst noSecond name carries also

/-- A release takes nothing from a sound graph. -/
theorem Sound.of_release (sound : network.Sound graph) (coherent : network.Coherent) {id : GraphId}
    (found : network.graph? id = some graph) (held : List NodeId) :
    (network.release held).Sound graph := by
  have kept (node : NodeId) (reached : network.Reaches graph.currentRoots node) :
      node ∈ network.survivors held :=
    coherent.mem_survivors_of_reaches found reached
  have names (node : Node) (stays : NodeId → Bool) :
      (node.prune stays).outputs.map (·.names) = node.outputs.map (·.names) := by
    simp [Node.prune, Function.comp_def]
  refine sound.of_local (fun node reached => elim_release (fun _ _ => rfl) [] (kept node reached))
    (fun node reached => map_release (fun _ _ => rfl) (kept node reached)) ?_
  intro first second inFirst inSecond noFirst noSecond name carries also
  rw [ownNames_eq_elim, elim_release names [] (kept _ inFirst), ← ownNames_eq_elim] at carries
  rw [ownNames_eq_elim, elim_release names [] (kept _ inSecond), ← ownNames_eq_elim] at also
  exact sound.distinct first second inFirst inSecond noFirst noSecond name carries also

/-- A graph as a validation leaves it: fresh and sound. -/
structure Settled (network : Network) (id : GraphId) (graph : Graph) : Prop where
  coherent : network.Coherent
  regular : network.Regular
  recorded : network.Recorded
  found : network.graph? id = some graph
  isFresh : graph.isFresh
  sound : network.Sound graph

variable {id : GraphId}

theorem Settled.of_release (settled : network.Settled id graph) (held : List NodeId) :
    (network.release held).Settled id graph where
  coherent := settled.coherent.of_move .released
  regular := settled.regular.of_move .released
  recorded := settled.recorded.of_move .released
  found := by rw [graph?_release, settled.found]
  isFresh := settled.isFresh
  sound := settled.sound.of_release settled.coherent settled.found held

theorem Settled.of_log (settled : network.Settled id graph) (events : Array Event) :
    Settled { network with events } id graph where
  coherent := settled.coherent.of_move .logged
  regular := settled.regular.of_move .logged
  recorded := settled.recorded.of_move .logged
  found := settled.found
  isFresh := settled.isFresh
  sound := settled.sound.of_local (fun _ _ => rfl) (fun _ _ => rfl) settled.sound.distinct

/-- A naming, accepted or refused, leaves a settled graph as it is. -/
theorem Settled.of_updateNames (settled : network.Settled id graph) (port : OutputPort)
    (given : List String) {update : NameSet → NameSet}
    (gives : update = (fun _ => .ofList given) ∨ update = (·.union (.ofList given))) :
    ((Edit.updateNames port (.ofList given) update).on network).2.Settled id graph := by
  have moves := Edit.follows_updateNames port given gives network
  rcases Edit.on_updateNames_cases port (.ofList given) update network with
    ⟨error, refused⟩ | ⟨free, named⟩
  · rw [refused]
    exact settled
  · rw [named] at moves ⊢
    have ordered := settled.coherent.fresh id graph settled.found settled.isFresh
    have apart (reached : network.Reaches graph.currentRoots (network.tensorOwner port).node) :
        network.Free graph.currentRoots (network.tensorOwner port) (NameSet.ofList given) :=
      settled.coherent.free_of_checkNames settled.recorded settled.found
        ((settled.coherent.mem_iff_reaches settled.found ordered _).mpr reached) reached free
    refine
      { coherent := settled.coherent.of_moves moves, regular := settled.regular.of_moves moves,
        recorded := settled.recorded.of_moves moves, found := settled.found,
        isFresh := settled.isFresh,
        sound := settled.sound.of_renamed apart fun names name member => ?_ }
    rcases gives with rfl | rfl
    · exact Or.inl member
    · exact (NameSet.mem_union.mp member).symm

/-- A validation that succeeds settles the graph. -/
theorem Settled.of_validate (coherent : network.Coherent) (regular : network.Regular)
    (recorded : network.Recorded) (found : network.graph? id = some graph) {after : Network}
    (validated : (Edit.validate id).on network = (.ok (), after)) :
    ∃ current, after.Settled id current ∧ current.boundary = graph.boundary := by
  have moves := Edit.follows_validate id network
  rw [validated] at moves
  have afterCoherent := coherent.of_moves moves
  have afterRegular := regular.of_moves moves
  have again := (coherent.validated regular found validated).2
  have fresh : ∃ current, after.graph? id = some current ∧ current.isFresh ∧
      current.frame = graph.frame := by
    rcases coherent.validate_cases regular found with
      ⟨error, refusedAfter, -, outcome, -, -⟩ |
      ⟨nodes, scheduled, current, -, -, -, stillRegular, -, known, isFresh, -, frame, outcome⟩
    · rw [outcome] at validated
      cases validated
    · rw [outcome, on_validate_of_fresh stillRegular known isFresh] at validated
      have pass := retyped_forM_inferNode stillRegular current.schedule
      rcases ended : (current.schedule.forM Edit.inferNode).on scheduled with ⟨error | _, later⟩ <;>
        rw [ended] at validated pass
      · cases validated
      · obtain ⟨-, rfl⟩ := Prod.mk.inj validated
        exact ⟨current, (pass.graphs id).trans known, isFresh, frame⟩
  obtain ⟨current, known, isFresh, frame⟩ := fresh
  refine ⟨current, ⟨afterCoherent, afterRegular, recorded.of_moves moves, known, isFresh, ?_⟩,
    Graph.boundary_eq_of_frame frame⟩
  rw [← afterCoherent.validate_ok_iff afterRegular known, again]

end Preservation

end Network

/-- The command gives names to a tensor. -/
def Command.IsNaming : Command → Prop
  | setNames _ _ => True
  | addNames _ _ => True
  | _ => False

namespace Session

open Network

variable {session : Session} {id : GraphId} {graph : Graph}

theorem settled_step (settled : session.network.Settled id graph) {command : Command}
    (naming : command.IsNaming) : (session.step command).2.network.Settled id graph := by
  have cleared := settled.of_log #[]
  have given {port : OutputPort} {names : List String} {update : NameSet → NameSet}
      (gives : update = (fun _ => .ofList names) ∨ update = (·.union (.ofList names))) :
      ((Action.edit (Edit.updateNames port (.ofList names) update) >>= fun _ =>
        (pure .done : Action Answer)).on session.clearEvents).2.network.Settled id graph := by
    have named := cleared.of_updateNames port names gives
    rw [Action.on_bind, Action.on_edit]
    cases ((Edit.updateNames port (.ofList names) update).on session.clearEvents.network).1 <;>
      exact named
  cases command with
  | setNames port names => exact Settled.of_release (given (Or.inl rfl)) _
  | addNames port names => exact Settled.of_release (given (Or.inr rfl)) _
  | _ => exact naming.elim

theorem settled_run (settled : session.network.Settled id graph) {namings : List Command}
    (naming : ∀ command ∈ namings, command.IsNaming) :
    (session.run namings).network.Settled id graph := by
  induction namings generalizing session with
  | nil => exact settled
  | cons command namings ih =>
      obtain ⟨first, rest⟩ := List.forall_mem_cons.mp naming
      exact ih (settled_step settled first) rest

/-- A validation that a session answers settles the graph of the handle. -/
theorem settled_of_validate (reachable : session.Reachable) {handle : String}
    (bound : session.graphs.get? handle = some id)
    (found : session.network.graph? id = some graph) {after : Session}
    (validated : session.step (.validate handle) = (.ok .done, after)) :
    ∃ current, after.network.Settled id current ∧ current.boundary = graph.boundary := by
  have moves : Moves Network.empty session.clearEvents.network := .tail reachable.moves .logged
  have stillBound : session.clearEvents.graphs.get? handle = some id := bound
  have performed := Action.on_onGraph stillBound Edit.validate
  rw [step, Action.perform, performed] at validated
  rcases outcome : (Edit.validate id).on session.clearEvents.network with ⟨error | _, network⟩ <;>
    rw [outcome] at validated
  · cases (Prod.mk.inj validated).1
  · obtain ⟨-, rfl⟩ := Prod.mk.inj validated
    obtain ⟨current, settled, boundary⟩ := Settled.of_validate (coherent_empty.of_moves moves)
      (regular_empty.of_moves moves) (recorded_empty.of_moves moves) found outcome
    exact ⟨current, settled.of_release _, boundary⟩

/-- After a validation that succeeded and any run of namings, each accepted or refused, a
name is carried by one output at most of those within reach of the graph that are no
results; the graph can be validated again, no look-up of its inputs or outputs by a name
finds a conflict, and giving out a tensor by its name succeeds unless there is none. -/
theorem Reachable.names_stay_unique (reachable : session.Reachable) {handle : String}
    (bound : session.graphs.get? handle = some id)
    (found : session.network.graph? id = some graph) {validated : Session}
    (succeeds : session.step (.validate handle) = (.ok .done, validated))
    {namings : List Command} (naming : ∀ command ∈ namings, command.IsNaming) :
    let network := (validated.run namings).network
    ∃ current, network.graph? id = some current ∧ current.boundary = graph.boundary ∧
      (∀ first second : OutputPort, network.Reaches current.currentRoots first.node →
        network.Reaches current.currentRoots second.node →
        network.isResult first.node = false → network.isResult second.node = false →
        ∀ name ∈ network.ownNames first, name ∈ network.ownNames second → first = second) ∧
      ((Edit.validate id).on network).1 = .ok () ∧
      (∀ part name conflict,
        network.select part current (.name name) ≠ .error (.nameConflict conflict)) ∧
      ∀ name,
        ((Edit.addOutput id (.tensor name)).on network).1 = .error (.nameNotFound name) ∨
        ∃ port, ((Edit.addOutput id (.tensor name)).on network).1 = .ok port := by
  obtain ⟨current, settled, boundary⟩ := settled_of_validate reachable bound found succeeds
  have stays := settled_run settled naming
  have closed := stays.coherent.dependencies
  refine ⟨current, stays.found, boundary, stays.sound.distinct,
    (stays.coherent.validate_ok_iff stays.regular stays.found).mpr stays.sound,
    fun part name conflict => ?_, fun name => ?_⟩
  · apply stays.sound.portNamed_ne_conflict closed
    exact fun node member => ⟨node, Graph.mem_currentRoots.mpr ⟨part, member⟩, .refl⟩
  · exact stays.sound.addOutput_tensor stays.coherent stays.found stays.isFresh name

/-- A graph of a parameter, a rectifier and a result, and a rectifier outside it. -/
def unnamed : Session :=
  empty.run [
    .create (.parameter { elementType := .f32, shape := .fixed [2, 3] }) [] none (.text "feed"),
    .create .relu [⟨1, 0⟩] none (.text "inside"),
    .create .result [⟨2, 0⟩] none (.text "outcome"),
    .createGraph [3] [1] [] .absent (.text "graph"),
    .create .relu [⟨2, 0⟩] none (.text "outside")]

theorem unnamed_reachable : unnamed.Reachable :=
  ⟨_, rfl⟩

/-- Of these namings the third is refused: the rectifier of the graph has got the name
through the result, and the rectifier outside the graph may have it too. -/
def namesGiven : List Command :=
  [.setNames ⟨3, 0⟩ ["t"], .addNames ⟨4, 0⟩ ["t"], .setNames ⟨1, 0⟩ ["t"],
    .addNames ⟨1, 0⟩ ["s"]]

theorem answers_unnamed :
    unnamed.graphs.get? "graph" = some 1 ∧ (unnamed.network.graph? 1).isSome ∧
    (unnamed.step (.validate "graph")).1 = .ok .done ∧
    ((unnamed.step (.validate "graph")).2.run namesGiven).network.tensorNames ⟨3, 0⟩ = ["t"] ∧
    ((unnamed.step (.validate "graph")).2.run namesGiven).network.tensorNames ⟨4, 0⟩ = ["t"] ∧
    ((unnamed.step (.validate "graph")).2.run namesGiven).network.tensorNames ⟨1, 0⟩ = ["s"] := by
  cbv

theorem names_unnamed :
    let network := ((unnamed.step (.validate "graph")).2.run namesGiven).network
    network.tensorNames ⟨3, 0⟩ = ["t"] ∧ network.tensorNames ⟨4, 0⟩ = ["t"] ∧
      network.tensorNames ⟨1, 0⟩ = ["s"] ∧ ((Edit.validate 1).on network).1 = .ok () := by
  obtain ⟨bound, known, answers, ofInner, ofOuter, ofFeed⟩ := answers_unnamed
  obtain ⟨graph, found⟩ := Option.isSome_iff_exists.mp known
  have succeeds := step_eq_of_ok answers
  have naming : ∀ command ∈ namesGiven, command.IsNaming := by
    simp [namesGiven, Command.IsNaming]
  obtain ⟨current, -, -, -, again, -⟩ :=
    unnamed_reachable.names_stay_unique bound found succeeds naming
  exact ⟨ofInner, ofOuter, ofFeed, again⟩

end Session
end TensorGraph
