import Mathlib
import TensorGraph.Proofs.GivenOut
import TensorGraph.Proofs.Rollback

/-!
# Looking up tensors by name

Giving out a tensor by its name goes through all outputs within reach of a graph that belong
to no result, while an input or output of the graph is looked up among its own parameters or
results, through whatever chain of results they give out a tensor.  Once the graph was
validated, all of these find the same tensor.
-/

namespace TensorGraph

open Relation

namespace Network

/-- Some output within reach of the graph gives out a tensor of the name. -/
def CarriesName (network : Network) (graph : Graph) (name : String) : Prop :=
  ∃ port : OutputPort, network.Reaches graph.currentRoots port.node ∧
    port.index < network.outputCount port.node ∧ network.hasName port name

section Owners

variable {before after : Network} {graph : Graph} (sound : before.Sound graph)
  (closed : ∀ id, ∀ dependency ∈ before.dependencies id, before.Alive dependency)
  (alike : ∀ id, before.Reaches graph.currentRoots id → Alike before after id)

include sound closed alike

omit closed in
/-- Which tensor a port within reach gives out depends on nothing but what is within reach. -/
theorem Sound.tensorOwner_of_alike {port : OutputPort}
    (reached : before.Reaches graph.currentRoots port.node) :
    after.tensorOwner port = before.tensorOwner port := by
  have below (id : NodeId) (path : ReflTransGen before.DependsOn port.node id) :
      before.Reaches graph.currentRoots id := by
    obtain ⟨root, member, above⟩ := reached
    exact ⟨root, member, above.trans path⟩
  have aliased (source : OutputPort) (inside : before.Reaches graph.currentRoots source.node) :
      after.aliased? source = before.aliased? source := by
    rw [aliased?, aliased?, (alike _ inside).isResult, (alike _ inside).source?]
  have alive (id : NodeId) (path : ReflTransGen before.DependsOn port.node id) :
      before.Alive id := by
    obtain ⟨types, typed⟩ := sound.typed id (below id path)
    exact typed.alive
  rw [tensorOwner_eq_ownerAmong, tensorOwner_eq_ownerAmong]
  refine ownerAmong_congr sound.acyclic aliased (fun id path => mem_ids.mpr (alive id path))
    (fun id path => mem_ids.mpr ?_) reached
  exact (alike id (below id path)).alive_iff.mpr (alive id path)

theorem Sound.hasName_of_alike {port : OutputPort}
    (reached : before.Reaches graph.currentRoots port.node) (name : String) :
    after.hasName port name = before.hasName port name := by
  have inside := (sound.owner closed reached).1
  rw [hasName, hasName, tensorNames, tensorNames,
    sound.tensorOwner_of_alike alike reached, (alike _ inside).ownNames]

end Owners

/-- A look-up succeeds if some of the ports have the name and all of these give out one
tensor. -/
theorem exists_portNamed {network : Network} {nodes : List NodeId} {name : String}
    {owner : OutputPort}
    (carried : ∃ node ∈ nodes, network.hasName (firstOutput node) name)
    (single : ∀ node ∈ nodes, network.hasName (firstOutput node) name →
      network.tensorOwner (firstOutput node) = owner) :
    ∃ port, network.portNamed nodes name = .ok port ∧ network.tensorOwner port = owner := by
  have owners (port : OutputPort)
      (member : port ∈ (nodes.map firstOutput).filter (network.hasName · name)) :
      network.tensorOwner port = owner := by
    obtain ⟨inNodes, carries⟩ := List.mem_filter.mp member
    obtain ⟨node, inside, rfl⟩ := List.mem_map.mp inNodes
    exact single node inside carries
  rw [portNamed]
  split
  next none =>
    obtain ⟨node, inside, carries⟩ := carried
    have member : firstOutput node ∈ (nodes.map firstOutput).filter (network.hasName · name) :=
      List.mem_filter.mpr ⟨List.mem_map_of_mem inside, carries⟩
    rw [none] at member
    cases member
  next first others found =>
    rw [found] at owners
    have here := owners first (List.mem_cons_self ..)
    have same : (others.map network.tensorOwner).find? (· ≠ network.tensorOwner first) = none := by
      rw [List.find?_eq_none]
      intro other member
      obtain ⟨port, inOthers, rfl⟩ := List.mem_map.mp member
      simpa [here] using owners port (List.mem_cons_of_mem _ inOthers)
    dsimp only
    rw [same]
    exact ⟨first, rfl, here⟩

section Settled

variable {network after : Network} {id : GraphId} {graph : Graph} {port output : OutputPort}
  {name : String}

/-- Giving out a port within reach changes nothing that an order or a look-up sees there. -/
theorem Coherent.alike_of_givesOut (coherent : network.Coherent)
    (found : network.graph? id = some graph) (gives : Edit.GivesOut id network port output after)
    {node : NodeId} (reached : network.Reaches graph.currentRoots node) :
    Alike network after node := by
  cases gives with
  | itself | read => rfl
  | added => exact coherent.alike_withOutput found port reached

theorem Settled.mem_schedule_iff (settled : network.Settled id graph) {node : NodeId} :
    node ∈ graph.schedule ↔ network.Reaches graph.currentRoots node :=
  settled.coherent.mem_iff_reaches settled.found
    (settled.coherent.fresh id graph settled.found settled.isFresh) node

/-- Some tensor within reach has a name exactly if an output of no result has it. -/
theorem Settled.carriesName_iff (settled : network.Settled id graph) (name : String) :
    network.CarriesName graph name ↔ network.portsNamed graph.schedule name ≠ [] := by
  constructor
  · rintro ⟨port, reached, -, carries⟩ none
    obtain ⟨inside, noResult⟩ := settled.sound.owner settled.coherent.dependencies reached
    have member : network.tensorOwner port ∈ network.portsNamed graph.schedule name :=
      mem_portsNamed.mpr ⟨settled.mem_schedule_iff.mpr inside, noResult,
        of_decide_eq_true carries⟩
    rw [none] at member
    cases member
  · intro some
    obtain ⟨port, member⟩ := List.exists_mem_of_ne_nil _ some
    obtain ⟨inside, noResult, carries⟩ := mem_portsNamed.mp member
    refine ⟨port, settled.mem_schedule_iff.mp inside, lt_outputCount_of_mem_ownNames carries, ?_⟩
    rw [hasName, tensorNames_of_not_result noResult]
    exact decide_eq_true carries

/-- Once the one output that carries a name was given out, every port that was within reach
and has the name gives out that output, before as after. -/
theorem Settled.owner_of_hasName (settled : network.Settled id graph)
    (member : port ∈ network.portsNamed graph.schedule name)
    (gives : Edit.GivesOut id network port output after) {other : OutputPort}
    (reached : network.Reaches graph.currentRoots other.node)
    (carries : network.hasName other name) :
    after.tensorOwner other = port ∧ network.tensorOwner other = port := by
  obtain ⟨inside, noResult, also⟩ := mem_portsNamed.mp member
  have alike (node : NodeId) (reached : network.Reaches graph.currentRoots node) :=
    settled.coherent.alike_of_givesOut settled.found gives reached
  have owner : network.tensorOwner other = port := by
    rw [← tensorOwner_of_not_result noResult]
    apply settled.sound.tensorOwner_eq settled.coherent.dependencies reached
      (settled.mem_schedule_iff.mp inside) carries
    rw [hasName, tensorNames_of_not_result noResult]
    exact decide_eq_true also
  exact ⟨(settled.sound.tensorOwner_of_alike alike reached).trans owner, owner⟩

/-- Once a name was given out, it is found among the outputs of the graph, with the tensor
that was given out. -/
theorem Settled.select_of_givesOut (settled : network.Settled id graph)
    (member : port ∈ network.portsNamed graph.schedule name)
    (gives : Edit.GivesOut id network port output after) :
    ∃ later found, after.graph? id = some later ∧
      after.select .results later (.name name) = .ok found ∧ after.tensorOwner found = port := by
  obtain ⟨inside, noResult, carries⟩ := mem_portsNamed.mp member
  have alike (node : NodeId) (reached : network.Reaches graph.currentRoots node) :=
    settled.coherent.alike_of_givesOut settled.found gives reached
  obtain ⟨isResult, reads, still, later, known, given, former⟩ :=
    settled.coherent.reads_of_givesOut settled.found gives noResult
  obtain ⟨result, inResults, rfl⟩ := List.mem_map.mp given
  have owner : after.tensorOwner (firstOutput result) = port :=
    tensorOwner_of_reads isResult reads still
  have named : after.hasName (firstOutput result) name := by
    rw [hasName, tensorNames, owner, (alike _ (settled.mem_schedule_iff.mp inside)).ownNames]
    exact decide_eq_true carries
  obtain ⟨found, selected, gave⟩ : ∃ found, after.portNamed later.results name = .ok found ∧
      after.tensorOwner found = port := by
    refine exists_portNamed ⟨result, inResults, named⟩ fun other inLater also => ?_
    rcases former other inLater with rfl | known
    · exact owner
    · have reached : network.Reaches graph.currentRoots (firstOutput other).node :=
        reaches_of_mem_boundary .results known
      rw [settled.sound.hasName_of_alike settled.coherent.dependencies alike reached] at also
      exact (settled.owner_of_hasName member gives reached also).1
  exact ⟨later, found, known, selected, gave⟩

end Settled

end Network

namespace Session

open Network

variable {session : Session} {id : GraphId} {graph : Graph}

/-- Right after a validation that succeeded, giving out a tensor by its name succeeds exactly if
some tensor within reach of the graph has the name, which is not found otherwise.  The name is
then found among the outputs of the graph, and whatever input or output of the graph was found by
it before gives out the same tensor. -/
theorem Reachable.lookups_agree (reachable : session.Reachable) {handle : String}
    (bound : session.graphs.get? handle = some id)
    (found : session.network.graph? id = some graph) {validated : Session}
    (succeeds : session.step (.validate handle) = (.ok .done, validated)) (name : String) :
    let network := validated.network
    ∃ current, network.graph? id = some current ∧ current.boundary = graph.boundary ∧
      ((∃ output, ((Edit.addOutput id (.tensor name)).on network).1 = .ok output) ↔
        network.CarriesName current name) ∧
      (¬ network.CarriesName current name →
        ((Edit.addOutput id (.tensor name)).on network).1 = .error (.nameNotFound name)) ∧
      ∀ output after, (Edit.addOutput id (.tensor name)).on network = (.ok output, after) →
        (∃ later port, after.graph? id = some later ∧
          after.select .results later (.name name) = .ok port ∧
          after.tensorOwner port = after.tensorOwner output) ∧
        ∀ part port, network.select part current (.name name) = .ok port →
          after.tensorOwner port = after.tensorOwner output ∧
            network.tensorOwner port = after.tensorOwner output := by
  intro network
  obtain ⟨current, settled, boundary⟩ := settled_of_validate reachable bound found succeeds
  refine ⟨current, settled.found, boundary, ?_⟩
  have carried := settled.carriesName_iff name
  rcases settled.sound.givesOut_tensor settled.coherent settled.found settled.isFresh name with
    ⟨none, unknown⟩ | ⟨port, member, output, after, gives, given⟩
  · have absent : ¬ network.CarriesName current name := fun carries => carried.mp carries none
    rw [unknown]
    exact ⟨iff_of_false (by simp) absent, fun _ => rfl, by simp⟩
  · have present : network.CarriesName current name := carried.mpr (List.ne_nil_of_mem member)
    refine ⟨iff_of_true ⟨output, congrArg Prod.fst given⟩ present,
      fun absent => (absent present).elim, fun other last answered => ?_⟩
    obtain ⟨same, rfl⟩ := Prod.mk.inj (given.symm.trans answered)
    obtain rfl := Except.ok.inj same
    obtain ⟨-, noResult, -⟩ := mem_portsNamed.mp member
    obtain ⟨isResult, reads, still, -⟩ :=
      settled.coherent.reads_of_givesOut settled.found gives noResult
    have owner : after.tensorOwner output = port := tensorOwner_of_reads isResult reads still
    obtain ⟨later, port, known, selected, gave⟩ := settled.select_of_givesOut member gives
    refine ⟨⟨later, port, known, selected, gave.trans owner.symm⟩, fun part other chosen => ?_⟩
    obtain ⟨inPart, carries⟩ := of_portNamed chosen
    have reached : network.Reaches current.currentRoots other.node :=
      reaches_of_mem_boundary part inPart
    rw [owner]
    exact settled.owner_of_hasName member gives reached carries

/-- A rectifier with a name, a result that reads it, and a graph of a result that reads that
result. -/
def chained : Session :=
  empty.run [
    .create (.parameter { elementType := .f32, shape := .fixed [2, 3] }) [] none (.text "feed"),
    .create .relu [⟨1, 0⟩] none (.text "rectifier"),
    .setNames ⟨2, 0⟩ ["t"],
    .create .result [⟨2, 0⟩] none (.text "inner"),
    .create .result [⟨3, 0⟩] none (.text "outer"),
    .createGraph [4] [1] [] .absent (.text "graph")]

theorem chained_reachable : chained.Reachable :=
  ⟨_, rfl⟩

/-- The graph has a result for the name already, but none that reads the rectifier itself. -/
theorem lookups_chained :
    let network := (chained.step (.validate "graph")).2.network
    ∃ current after, network.graph? 1 = some current ∧
      network.select .results current (.name "t") = .ok ⟨4, 0⟩ ∧
      (Edit.addOutput 1 (.tensor "t")).on network = (.ok ⟨5, 0⟩, after) ∧
      after.tensorOwner ⟨4, 0⟩ = after.tensorOwner ⟨5, 0⟩ := by
  have outcomes :
      (chained.graphs.get? "graph", (chained.network.graph? 1).isSome,
        (chained.step (.validate "graph")).1,
        ((chained.step (.validate "graph")).2.network.graph? 1).map
          ((chained.step (.validate "graph")).2.network.select .results · (.name "t")),
        ((Edit.addOutput 1 (.tensor "t")).on (chained.step (.validate "graph")).2.network).1) =
      (some 1, true, .ok .done, some (.ok ⟨4, 0⟩), .ok ⟨5, 0⟩) := by
    cbv
  simp only [Prod.mk.injEq, Option.isSome_iff_exists] at outcomes
  obtain ⟨bound, ⟨graph, found⟩, answers, selected, answer⟩ := outcomes
  have given := Edit.on_eq_of_ok answer
  obtain ⟨current, known, -, -, -, agree⟩ :=
    chained_reachable.lookups_agree bound found (step_eq_of_ok answers) "t"
  rw [known, Option.map_some] at selected
  have chosen := Option.some.inj selected
  obtain ⟨-, same⟩ := agree _ _ given
  exact ⟨current, _, known, chosen, given, (same .results _ chosen).1⟩

end Session
end TensorGraph
