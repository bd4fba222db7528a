import Mathlib
import TensorGraph.Proofs.Uniqueness

/-!
# Targets

Which port a target singles out depends on what is within reach of a graph, not on the
order in which it is listed, and only on the names and the roles of the nodes there.  A
graph that has a result for the port answers the same output again, whatever else of the
network is scheduled, released or given out in between.
-/

namespace TensorGraph

open Relation

/-- What an order and a look-up see of a node. -/
structure Aspect where
  name : String
  role : Role
  sources : List OutputPort
  controlDependencies : List NodeId
  /-- The names of its outputs. -/
  names : List NameSet

/-- What an order and a look-up see of the node. -/
def Node.aspect (node : Node) : Aspect where
  name := node.name
  role := node.operator.role
  sources := node.sources
  controlDependencies := node.controlDependencies
  names := node.outputs.map (·.names)

theorem Node.aspect_reconsume (node : Node) (index : Nat)
    (change : List InputPort → List InputPort) :
    (node.reconsume index change).aspect = node.aspect := by
  rw [aspect, node.map_reconsume index change fun _ _ => rfl]
  rfl

theorem Node.aspect_prune (node : Node) (stays : NodeId → Bool) :
    (node.prune stays).aspect = node.aspect := by
  simp [aspect, prune, Function.comp_def]

theorem Node.aspect_skeleton (node : Node) : node.skeleton.aspect = node.aspect := by
  simp [aspect, skeleton, Function.comp_def]

namespace Network

/-- A node shows the same to orders and look-ups in both networks, or is in neither. -/
def Alike (before after : Network) (id : NodeId) : Prop :=
  (after.node? id).map Node.aspect = (before.node? id).map Node.aspect

/-- The node is there and has the name. -/
def HasNodeName (network : Network) (id : NodeId) (name : String) : Prop :=
  (network.node? id).map (·.name) = some name

namespace Alike

variable {before after : Network} {id : NodeId}

/-- What depends on the aspect of a node alone is the same. -/
theorem elim_eq {γ : Type} (alike : Alike before after id) (view : Aspect → γ) (otherwise : γ) :
    (after.node? id).elim otherwise (fun node => view node.aspect) =
      (before.node? id).elim otherwise fun node => view node.aspect := by
  rcases map_eq_map_cases alike with ⟨later, former⟩ | ⟨node, other, later, former, same⟩
  · rw [later, former]
  · rw [later, former, Option.elim_some, Option.elim_some, same]

theorem sources (alike : Alike before after id) : after.sources id = before.sources id :=
  alike.elim_eq Aspect.sources []

theorem source? (alike : Alike before after id) (index : Nat) :
    after.source? ⟨id, index⟩ = before.source? ⟨id, index⟩ := by
  rw [Network.source?, alike.sources, Network.source?]

theorem dependencies (alike : Alike before after id) :
    after.dependencies id = before.dependencies id :=
  alike.elim_eq (fun aspect => aspect.sources.map (·.node) ++ aspect.controlDependencies) []

theorem role? (alike : Alike before after id) : after.role? id = before.role? id := by
  have roles := congrArg (Option.map Aspect.role) alike
  rwa [Option.map_map, Option.map_map] at roles

theorem isResult (alike : Alike before after id) : after.isResult id = before.isResult id := by
  rw [Network.isResult, alike.role?, Network.isResult]

theorem alive_iff (alike : Alike before after id) : after.Alive id ↔ before.Alive id := by
  rw [alive_iff_role?, alike.role?, alive_iff_role?]

theorem hasNodeName_iff (alike : Alike before after id) (name : String) :
    after.HasNodeName id name ↔ before.HasNodeName id name := by
  have names := congrArg (Option.map Aspect.name) alike
  rw [Option.map_map, Option.map_map] at names
  exact iff_of_eq (congrArg (· = some name) names)

theorem outputCount (alike : Alike before after id) :
    after.outputCount id = before.outputCount id := by
  have counts := alike.elim_eq (·.names.length) 0
  rw [Network.outputCount, Network.outputCount]
  simpa only [Node.aspect, List.length_map] using counts

theorem ownNames (alike : Alike before after id) (index : Nat) :
    after.ownNames ⟨id, index⟩ = before.ownNames ⟨id, index⟩ := by
  have names := alike.elim_eq Aspect.names []
  rw [ownNames_eq_elim, ownNames_eq_elim]
  exact congrArg (·.getD index []) names

end Alike

/-- The target singles out the port among the nodes of a part of the network. -/
def SinglesOut (network : Network) (within : NodeId → Prop) : OutputTarget → OutputPort → Prop
  | .tensor name, port => ∀ other : OutputPort,
      within other.node ∧ network.isResult other.node = false ∧ name ∈ network.ownNames other ↔
        other = port
  | .node name index, port =>
      (∀ id, within id ∧ network.HasNodeName id name ↔ id = port.node) ∧ port.index = index ∧
        index < network.outputCount port.node
  | .port source, port => port = source ∧ within source.node

theorem eq_singleton_iff {α : Type} {items : List α} (nodup : items.Nodup) (item : α) :
    items = [item] ↔ ∀ other, other ∈ items ↔ other = item := by
  rw [← List.perm_singleton, List.perm_ext_iff_of_nodup nodup (List.nodup_singleton item)]
  simp only [List.mem_singleton]

section Targets

variable {network before after : Network} {within wider : NodeId → Prop} {nodes : List NodeId}
  {target : OutputTarget} {port : OutputPort}

/-- A target is resolved to the port that it singles out, in whatever order the nodes are
listed. -/
theorem resolveTarget_eq_ok_iff (nodup : nodes.Nodup) :
    network.resolveTarget nodes target = .ok port ↔
      network.SinglesOut (· ∈ nodes) target port := by
  cases target with
  | tensor name =>
      have once : (network.portsNamed nodes name).Nodup := (nodup_ownerPorts nodup).filter _
      have singled := eq_singleton_iff once port
      simp only [mem_portsNamed] at singled
      rw [SinglesOut, ← singled, resolveTarget]
      split
      next none => simp [none]
      next found => simp [found]
      next several => simpa using several port
  | node name index =>
      have once : (nodes.filter fun node =>
        (network.node? node).any (·.name = name)).Nodup := nodup.filter _
      have singled := eq_singleton_iff once port.node
      have named (id : NodeId) :
          (network.node? id).any (·.name = name) ↔ network.HasNodeName id name := by
        rw [HasNodeName]
        cases network.node? id <;> simp
      simp only [List.mem_filter, named] at singled
      rw [SinglesOut, ← singled, resolveTarget]
      split
      next none => simp [none]
      next node found =>
        rw [found]
        constructor
        · intro ok
          split at ok
          next valid =>
            obtain rfl := Except.ok.inj ok
            exact ⟨rfl, rfl, valid⟩
          · cases ok
        · rintro ⟨same, rfl, valid⟩
          obtain rfl := List.head_eq_of_cons_eq same
          rw [if_pos valid]
      next several => simpa using fun found => (several port.node found).elim
  | port source =>
      rw [SinglesOut, resolveTarget]
      split
      next inside => simp [inside, eq_comm]
      next outside => simp [outside]

theorem Ordered.resolveTarget_eq_ok_iff {roots : List NodeId}
    (listed : before.Ordered roots nodes) :
    after.resolveTarget nodes target = .ok port ↔
      after.SinglesOut (before.Reaches roots) target port := by
  have same : (· ∈ nodes) = before.Reaches roots :=
    funext fun id => propext (listed.mem_iff id)
  rw [Network.resolveTarget_eq_ok_iff listed.nodup, same]

theorem SinglesOut.inside (singles : network.SinglesOut within target port) :
    within port.node := by
  cases target with
  | tensor name => exact ((singles port).mpr rfl).1
  | node name index => exact ((singles.1 port.node).mpr rfl).1
  | port source => exact singles.1 ▸ singles.2

/-- A port stays singled out while the nodes of the part stay alike, as long as what joins them
are results that are not called by the name of the target. -/
theorem SinglesOut.of_alike (singles : before.SinglesOut within target port)
    (alike : ∀ id, within id → Alike before after id) (keeps : ∀ id, within id → wider id)
    (joins : ∀ id, wider id → within id ∨ after.isResult id ∧
      ∀ name index, target = .node name index → ¬ after.HasNodeName id name) :
    after.SinglesOut wider target port := by
  cases target with
  | tensor name =>
      intro other
      constructor
      · rintro ⟨inside, noResult, carries⟩
        rcases joins _ inside with known | ⟨isResult, -⟩
        · rw [(alike _ known).isResult] at noResult
          rw [(alike _ known).ownNames] at carries
          exact (singles other).mp ⟨known, noResult, carries⟩
        · rw [isResult] at noResult
          cases noResult
      · rintro rfl
        obtain ⟨known, noResult, carries⟩ := (singles other).mpr rfl
        rw [(alike _ known).isResult, (alike _ known).ownNames]
        exact ⟨keeps _ known, noResult, carries⟩
  | node name index =>
      obtain ⟨named, indices, valid⟩ := singles
      have known := ((named port.node).mpr rfl).1
      refine ⟨fun id => ⟨?_, ?_⟩, indices, (alike _ known).outputCount ▸ valid⟩
      · rintro ⟨inside, called⟩
        rcases joins id inside with known | ⟨-, apart⟩
        · exact (named id).mp ⟨known, ((alike id known).hasNodeName_iff name).mp called⟩
        · exact (apart name index rfl called).elim
      · rintro rfl
        obtain ⟨known, called⟩ := (named port.node).mpr rfl
        exact ⟨keeps _ known, ((alike _ known).hasNodeName_iff name).mpr called⟩
  | port source => exact ⟨singles.1, keeps _ singles.2⟩

end Targets

section Readers

variable {network before after : Network} {port : OutputPort} {results : List NodeId}

theorem reader?_congr (same : ∀ result ∈ results,
    after.source? ⟨result, 0⟩ = before.source? ⟨result, 0⟩) :
    after.reader? port results = before.reader? port results := by
  induction results with
  | nil => rfl
  | cons result results ih =>
      obtain ⟨first, rest⟩ := List.forall_mem_cons.mp same
      rw [reader?, reader?, first, ih rest]

theorem reader?_append (others : List NodeId) (unread : network.reader? port results = .ok none) :
    network.reader? port (results ++ others) = network.reader? port others := by
  induction results with
  | nil => rfl
  | cons result results ih =>
      rw [reader?] at unread
      rw [List.cons_append, reader?]
      split at unread
      · cases unread
      · split at unread
        · cases unread
        next different => exact (if_neg different).trans (ih unread)

theorem source?_ne_of_reader? (unread : network.reader? port results = .ok none) :
    ∀ result ∈ results, network.source? ⟨result, 0⟩ ≠ some port := by
  induction results with
  | nil => simp
  | cons result results ih =>
      rw [reader?] at unread
      split at unread
      · cases unread
      next source reads =>
        split at unread
        · cases unread
        next different =>
          refine List.forall_mem_cons.mpr ⟨?_, ih unread⟩
          rw [reads]
          exact fun same => different (Option.some.inj same)

end Readers

/-- The graph answers the output to the target without a further result: the target singles out
the port, which is a result's or is read by a result of the graph. -/
structure Offers (network : Network) (graph : Graph) (target : OutputTarget)
    (port output : OutputPort) : Prop where
  acyclic : ∀ id, network.Reaches graph.currentRoots id → ¬ TransGen network.DependsOn id id
  singled : network.SinglesOut (network.Reaches graph.currentRoots) target port
  answer : network.isResult port.node ∧ output = port ∨
    network.isResult port.node = false ∧ ∃ result,
      network.reader? port graph.results = .ok (some result) ∧ output = firstOutput result

theorem Keeps.alike {before after : Network} (keeps : Keeps before after) (id : NodeId) :
    Alike before after id := by
  have skeletons : Agree (fun node => node.skeleton.aspect) before after :=
    keeps.nodes.map Node.aspect
  simp only [Node.aspect_skeleton] at skeletons
  exact skeletons id

section Offers

variable {network before after : Network} {id : GraphId} {graph : Graph} {target : OutputTarget}
  {port output : OutputPort} {nodes : List NodeId}

/-- What a graph offers depends on nothing but what is within its reach. -/
theorem Offers.of_alike (offers : before.Offers graph target port output)
    (alike : ∀ id, before.Reaches graph.currentRoots id → Alike before after id) :
    after.Offers graph target port output := by
  have dependencies (id : NodeId) (reached : before.Reaches graph.currentRoots id) :=
    (alike id reached).dependencies
  have reaches {id : NodeId} :
      after.Reaches graph.currentRoots id ↔ before.Reaches graph.currentRoots id :=
    reaches_congr dependencies
  have reader : after.reader? port graph.results = before.reader? port graph.results := by
    refine reader?_congr fun result member => (alike result ?_).source? 0
    exact reaches_of_mem_boundary .results member
  refine
    { acyclic := fun id reached cycle => ?_, singled := ?_, answer := ?_ }
  · rw [reaches] at reached
    exact offers.acyclic id reached (transGen_of_reaches dependencies reached cycle).1
  · exact offers.singled.of_alike alike (fun id => reaches.mpr) fun id inside =>
      Or.inl (reaches.mp inside)
  · rw [(alike _ offers.singled.inside).isResult, reader]
    exact offers.answer

/-- What a graph offers is answered, and the results of the graph stay as they are. -/
theorem Offers.on_addOutput (offers : network.Offers graph target port output)
    (coherent : network.Coherent) (found : network.graph? id = some graph) :
    ∃ later current, (Edit.addOutput id target).on network = (.ok output, later) ∧
      later.graph? id = some current ∧ current.results = graph.results := by
  obtain ⟨nodes, ordered, listed⟩ : ∃ nodes, network.order graph.currentRoots = .ok nodes ∧
      network.Ordered graph.currentRoots nodes := by
    rcases order_cases coherent.dependencies (coherent.alive_of_mem_currentRoots found) with
      ordered | ⟨node, -, reached, cycle⟩
    · exact ordered
    · exact (offers.acyclic node reached cycle).elim
  have answered := coherent.fst_schedule found
  have keeps := Keeps.of_schedule network id
  rcases outcome : (Edit.schedule id).on network with ⟨result, scheduled⟩
  rw [outcome] at answered keeps
  obtain rfl : result = .ok nodes := answered.trans ordered
  obtain ⟨current, known, -, -, frame⟩ := graph?_schedule found outcome
  have results : current.results = graph.results := congrArg (·.2.2.1) frame
  have resolved : scheduled.resolveTarget nodes target = .ok port := by
    rw [listed.resolveTarget_eq_ok_iff]
    exact offers.singled.of_alike (fun id _ => keeps.alike id) (fun _ reached => reached)
      fun _ reached => Or.inl reached
  refine ⟨scheduled, current, ?_, known, results⟩
  rw [Edit.on_addOutput_of_resolved outcome resolved, graph_of_graph? known, results]
  rcases (offers.of_alike fun id _ => keeps.alike id).answer with
    ⟨isResult, rfl⟩ | ⟨noResult, result, reads, rfl⟩
  · rw [if_pos isResult]
  · rw [noResult, if_neg Bool.false_ne_true, reads]

end Offers

section NewResult

variable {network : Network} {id : GraphId} {graph : Graph} {target : OutputTarget}
  {port : OutputPort} {nodes : List NodeId}

variable (coherent : network.Coherent) (found : network.graph? id = some graph)

include coherent found

theorem Coherent.alike_release (held : List NodeId) {node : NodeId}
    (reached : network.Reaches graph.currentRoots node) :
    Alike network (network.release held) node :=
  map_release Node.aspect_prune (coherent.mem_survivors_of_reaches found reached)

theorem Coherent.alike_withOutput (port : OutputPort) {node : NodeId}
    (reached : network.Reaches graph.currentRoots node) :
    Alike network (network.withOutput id port) node := by
  have alive := coherent.alive_within_reach found reached
  rw [Alike, node?_withOutput _ _ _ Node.aspect_reconsume,
    if_neg (network.ne_nextId_of_alive alive)]

variable (inside : network.Reaches graph.currentRoots port.node)

include inside

/-- A new result that reads a port within reach is all that comes within reach. -/
theorem Coherent.reaches_withOutput (node : NodeId) :
    (network.withOutput id port).Reaches
        (graph.withResult network.nodes.nextId).currentRoots node ↔
      node = network.nodes.nextId ∨ network.Reaches graph.currentRoots node := by
  have dependencies (node : NodeId) (reached : network.Reaches graph.currentRoots node) :=
    (coherent.alike_withOutput found port reached).dependencies
  constructor
  · rintro ⟨root, member, path⟩
    induction path with
    | refl =>
        exact (Graph.mem_currentRoots_withResult.mp member).imp_right fun former =>
          ⟨root, former, .refl⟩
    | tail _ depends ih =>
        rcases ih with rfl | reached
        · rw [DependsOn, dependencies_withOutput, if_pos rfl] at depends
          exact Or.inr (List.mem_singleton.mp depends ▸ inside)
        · rw [DependsOn, dependencies _ reached] at depends
          exact Or.inr (reached.step depends)
  · rintro (rfl | reached)
    · exact ⟨_, Graph.mem_currentRoots_withResult.mpr (Or.inl rfl), .refl⟩
    · obtain ⟨root, member, path⟩ := (reaches_congr dependencies).mpr reached
      exact ⟨root, Graph.mem_currentRoots_withResult.mpr (Or.inr member), path⟩

/-- A new result that reads a port within reach closes no cycle. -/
theorem Coherent.acyclic_withOutput
    (acyclic : ∀ node, network.Reaches graph.currentRoots node →
      ¬ TransGen network.DependsOn node node) {node : NodeId}
    (reached : (network.withOutput id port).Reaches
      (graph.withResult network.nodes.nextId).currentRoots node) :
    ¬ TransGen (network.withOutput id port).DependsOn node node := by
  have dependencies (node : NodeId) (reached : network.Reaches graph.currentRoots node) :=
    (coherent.alike_withOutput found port reached).dependencies
  intro cycle
  rcases (coherent.reaches_withOutput found inside _).mp reached with rfl | known
  · obtain ⟨between, depends, path⟩ := TransGen.head'_iff.mp cycle
    rw [DependsOn, dependencies_withOutput, if_pos rfl] at depends
    obtain rfl := List.mem_singleton.mp depends
    have back : network.Reaches graph.currentRoots network.nodes.nextId := by
      rcases reflTransGen_iff_eq_or_transGen.mp path with same | further
      · exact same ▸ inside
      · exact (transGen_of_reaches dependencies inside further).2
    exact network.not_alive_nextId (coherent.alive_within_reach found back)
  · exact acyclic node known (transGen_of_reaches dependencies known cycle).1

omit inside in
/-- A graph whose schedule was answered offers what is given out without a further result. -/
theorem Coherent.offers_of_resolved {output : OutputPort}
    (ordered : network.order graph.currentRoots = .ok nodes)
    (resolved : network.resolveTarget nodes target = .ok port)
    (answer : network.isResult port.node ∧ output = port ∨
      network.isResult port.node = false ∧ ∃ result,
        network.reader? port graph.results = .ok (some result) ∧ output = firstOutput result) :
    network.Offers graph target port output := by
  have listed := coherent.ordered found ordered
  exact ⟨fun node reached => listed.acyclic node ((listed.mem_iff node).mpr reached),
    listed.resolveTarget_eq_ok_iff.mp resolved, answer⟩

omit inside in
/-- With a new result for it, the port is offered from then on, unless the new result is called
by the name of the target. -/
theorem Coherent.offers_withOutput
    (ordered : network.order graph.currentRoots = .ok nodes)
    (resolved : network.resolveTarget nodes target = .ok port)
    (noResult : network.isResult port.node = false)
    (unread : network.reader? port graph.results = .ok none)
    (differs : ∀ name index, target = .node name index →
      defaultName .result network.nodes.nextId ≠ name) :
    (network.withOutput id port).Offers (graph.withResult network.nodes.nextId) target port
      (firstOutput network.nodes.nextId) := by
  have listed := coherent.ordered found ordered
  have singled := listed.resolveTarget_eq_ok_iff.mp resolved
  have inside := singled.inside
  have reaches (node : NodeId) := coherent.reaches_withOutput found inside node
  have alike (node : NodeId) (reached : network.Reaches graph.currentRoots node) :=
    coherent.alike_withOutput found port reached
  refine { acyclic := fun node => ?_, singled := ?_, answer := Or.inr ⟨?_, _, ?_, rfl⟩ }
  · refine coherent.acyclic_withOutput found inside fun node reached => ?_
    exact listed.acyclic node ((listed.mem_iff node).mpr reached)
  · apply singled.of_alike alike fun node reached => (reaches node).mpr (Or.inr reached)
    intro node reached
    rcases (reaches node).mp reached with rfl | known
    · refine Or.inr ⟨by simp [isResult, role?_withOutput], fun name index named called => ?_⟩
      rw [HasNodeName, node?_withOutput _ _ _ fun _ _ _ => rfl, if_pos rfl] at called
      exact differs name index named (Option.some.inj called)
    · exact Or.inl known
  · rw [(alike _ inside).isResult]
    exact noResult
  · have still : (network.withOutput id port).reader? port graph.results = .ok none := by
      rw [← unread]
      refine reader?_congr fun result member => (alike result ?_).source? 0
      exact reaches_of_mem_boundary .results member
    have reads : (network.withOutput id port).source? ⟨network.nodes.nextId, 0⟩ = some port := by
      rw [source?, sources_withOutput, if_pos rfl]
      rfl
    refine (reader?_append [network.nodes.nextId] still).trans ?_
    rw [reader?, reads]
    exact if_pos rfl

end NewResult

end Network
end TensorGraph
