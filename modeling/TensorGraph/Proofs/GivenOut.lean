import Mathlib
import TensorGraph.Proofs.Handles
import TensorGraph.Proofs.Targets

/-!
# Giving out tensors

A target is resolved among the nodes within reach of a graph, and what is answered gives out
the tensor of the port that it singles out.  It is one of the outputs of the graph, except
where the port is that of a result which the graph does not have among its own.  At most one
result is added to the graph, and the same answer is given again without adding another.
-/

namespace TensorGraph

namespace Network

/-- A target resolved: the schedule of the graph is answered, and the target singles out the
port among its nodes. -/
structure Resolution (before scheduled : Network) (id : GraphId) (graph current : Graph)
    (nodes : List NodeId) (target : OutputTarget) (port : OutputPort) : Prop where
  keeps : Keeps before scheduled
  coherent : scheduled.Coherent
  found : scheduled.graph? id = some current
  frame : current.frame = graph.frame
  ordered : before.order graph.currentRoots = .ok nodes
  listed : before.Ordered graph.currentRoots nodes
  resolved : scheduled.resolveTarget nodes target = .ok port

section Resolution

variable {network before scheduled after : Network} {id : GraphId} {graph current : Graph}
  {nodes : List NodeId} {target : OutputTarget} {port output : OutputPort}

theorem Coherent.of_on_addOutput (coherent : network.Coherent)
    (found : network.graph? id = some graph)
    (given : (Edit.addOutput id target).on network = (.ok output, after)) :
    ∃ scheduled current nodes port,
      network.Resolution scheduled id graph current nodes target port ∧
        Edit.GivesOut id scheduled port output after := by
  obtain ⟨nodes, scheduled, port, answered, resolved, gives⟩ := Edit.of_on_addOutput given
  have ordered := coherent.fst_schedule found
  have keeps := Keeps.of_schedule network id
  have moves := Edit.follows_schedule id network
  rw [answered] at ordered keeps moves
  obtain ⟨current, known, -, -, frame⟩ := graph?_schedule found answered
  refine ⟨scheduled, current, nodes, port, ?_, gives⟩
  exact
    { keeps, coherent := coherent.of_moves moves, found := known, frame, ordered := ordered.symm,
      listed := coherent.ordered found ordered.symm, resolved }

namespace Resolution

variable (resolution : before.Resolution scheduled id graph current nodes target port)

include resolution

theorem results_eq : current.results = graph.results :=
  congrArg (·.2.2.1) resolution.frame

theorem currentRoots_eq : current.currentRoots = graph.currentRoots := by
  have boundary := Graph.boundary_eq_of_frame resolution.frame
  rw [Graph.currentRoots, Graph.currentRoots, resolution.results_eq]
  exact congrArg₂ (graph.results ++ · ++ ·) (congrFun boundary .sinks)
    (congrFun boundary .parameters)

theorem resolveTarget_eq : before.resolveTarget nodes target = .ok port := by
  have singled := (Network.resolveTarget_eq_ok_iff resolution.listed.nodup).mp resolution.resolved
  rw [Network.resolveTarget_eq_ok_iff resolution.listed.nodup]
  exact singled.of_alike (fun id _ => resolution.keeps.symm.alike id) (fun _ inside => inside)
    fun _ inside => Or.inl inside

theorem reordered : scheduled.order current.currentRoots = .ok nodes := by
  rw [resolution.currentRoots_eq]
  exact order_congr (fun _ => True) (fun id _ => resolution.keeps.alive_iff id)
    (fun id _ => resolution.keeps.dependencies id) (by simp) (by simp) resolution.ordered

theorem isResult_eq (node : NodeId) : scheduled.isResult node = before.isResult node :=
  resolution.keeps.isResult node

end Resolution

end Resolution

section Given

variable {network after : Network} {id : GraphId} {graph : Graph} {port output : OutputPort}

theorem Regular.outputCount_of_isResult (regular : network.Regular) {id : NodeId}
    (isResult : network.isResult id) : network.outputCount id = 1 := by
  obtain ⟨node, alive⟩ := alive_of_role? (of_decide_eq_true isResult)
  have count := (regular id node alive).count
  rw [operator_of_isResult alive isResult] at count
  rw [outputCount, alive]
  exact count

theorem Coherent.isResult_of_mem_results (coherent : network.Coherent)
    (found : network.graph? id = some graph) {result : NodeId}
    (member : result ∈ graph.results) : network.isResult result :=
  decide_eq_true (coherent.boundary id graph found .results result member)

/-- What is given out for a port of no result is an output of the graph that reads the port. -/
theorem Coherent.reads_of_givesOut (coherent : network.Coherent)
    (found : network.graph? id = some graph)
    (gives : Edit.GivesOut id network port output after)
    (noResult : network.isResult port.node = false) :
    after.isResult output.node ∧ after.source? ⟨output.node, 0⟩ = some port ∧
      after.isResult port.node = false ∧
      ∃ current, after.graph? id = some current ∧ output ∈ current.results.map firstOutput ∧
        ∀ result ∈ current.results, result = output.node ∨ result ∈ graph.results := by
  cases gives with
  | itself isResult =>
      rw [noResult] at isResult
      cases isResult
  | @read result _ reads =>
      rw [graph_of_graph? found] at reads
      obtain ⟨member, source⟩ := Edit.reads_of_reader? reads
      exact ⟨coherent.isResult_of_mem_results found member, source, noResult, graph, found,
        List.mem_map_of_mem member, fun _ => Or.inr⟩
  | added _ unread valid =>
      have old := network.ne_nextId_of_alive (alive_of_lt_outputCount valid)
      have known : (network.withOutput id port).graph? id =
          some (graph.withResult network.nodes.nextId) := by
        rw [graph?_withOutput, if_pos rfl, found]
        rfl
      refine ⟨?_, ?_, ?_, _, known, ?_, ?_⟩
      · rw [isResult, role?_withOutput]
        simp [firstOutput]
      · rw [source?, sources_withOutput]
        simp [firstOutput]
      · rw [isResult, role?_withOutput, if_neg old]
        exact noResult
      · simp [Graph.withResult, Graph.modifyBoundary]
      · simp [Graph.withResult, Graph.modifyBoundary, firstOutput, or_comm]

/-- What is given out for a port gives out the tensor of the port. -/
theorem Coherent.tensorOwner_of_givesOut (coherent : network.Coherent)
    (found : network.graph? id = some graph)
    (gives : Edit.GivesOut id network port output after) :
    after.tensorOwner output = after.tensorOwner port := by
  cases isResult : network.isResult port.node with
  | true =>
      cases gives with
      | itself => rfl
      | read noResult | added noResult =>
          rw [isResult] at noResult
          cases noResult
  | false =>
      obtain ⟨result, reads, still, -⟩ := coherent.reads_of_givesOut found gives isResult
      rw [tensorOwner_of_reads result reads still, tensorOwner_of_not_result still]

/-- A refused target leaves everything but schedules and memberships as it is. -/
theorem Keeps.of_refused {error : GraphError} {target : OutputTarget}
    (refused : (Edit.addOutput id target).on network = (.error error, after)) :
    Keeps network after := by
  rcases Edit.on_addOutput_cases id target network with
    ⟨cause, outcome⟩ | ⟨_, _, _, _, _, -, -, -, outcome⟩
  · obtain ⟨-, rfl⟩ := Prod.mk.inj (outcome.symm.trans refused)
    exact Keeps.of_schedule network id
  · cases (Prod.mk.inj (outcome.symm.trans refused)).1

/-- The graph has one further result, the last of them: a new node that reads the port and whose
output is the given one. -/
structure AppendsResult (before after : Network) (former later : Graph)
    (port output : OutputPort) : Prop where
  results : later.results = former.results ++ [output.node]
  first : output = firstOutput output.node
  new : ¬ before.Alive output.node
  alive : ∀ node, after.Alive node ↔ node = output.node ∨ before.Alive node
  isResult : after.isResult output.node
  sources : after.sources output.node = [port]

/-- What was given out is offered again, also after a release. -/
theorem Offers.again {target : OutputTarget} (offers : network.Offers graph target port output)
    (coherent : network.Coherent) (found : network.graph? id = some graph) {again : Network}
    (same : again = network ∨ ∃ held, again = network.release held) :
    ∃ later last, (Edit.addOutput id target).on again = (.ok output, later) ∧
      later.graph? id = some last ∧ last.results = graph.results := by
  rcases same with rfl | ⟨held, rfl⟩
  · exact offers.on_addOutput coherent found
  · have released : (network.release held).Offers graph target port output :=
      offers.of_alike fun node reached => coherent.alike_release found held reached
    exact released.on_addOutput (coherent.of_release held) ((graph?_release ..).trans found)

end Given

section Repeated

variable {before scheduled after : Network} {id : GraphId} {graph former : Graph}
  {nodes : List NodeId} {target : OutputTarget} {port output : OutputPort}

/-- Once a target is resolved, either nothing but schedules and memberships has changed or a new
result is appended, and from then on the answer is offered, unless the new result is called by
the name of the target. -/
theorem Resolution.offers
    (resolution : before.Resolution scheduled id graph former nodes target port)
    (gives : Edit.GivesOut id scheduled port output after) :
    ∃ current, after.graph? id = some current ∧
      (current.results = graph.results ∧ (∀ node, after.Alive node ↔ before.Alive node) ∨
        before.isResult port.node = false ∧
          (∀ result ∈ graph.results, before.source? ⟨result, 0⟩ ≠ some port) ∧
          AppendsResult before after graph current port output) ∧
      ((∀ name index, target = .node name index →
          current.results = graph.results ∨ defaultName .result output.node ≠ name) →
        after.Offers current target port output) := by
  have coherent := resolution.coherent
  have known := resolution.found
  have unchanged := And.intro resolution.results_eq resolution.keeps.alive_iff
  cases gives with
  | itself isResult =>
      exact ⟨former, known, Or.inl unchanged, fun _ => coherent.offers_of_resolved known
        resolution.reordered resolution.resolved (Or.inl ⟨isResult, rfl⟩)⟩
  | @read result noResult reads =>
      rw [graph_of_graph? known] at reads
      exact ⟨former, known, Or.inl unchanged, fun _ => coherent.offers_of_resolved known
        resolution.reordered resolution.resolved (Or.inr ⟨noResult, result, reads, rfl⟩)⟩
  | added noResult unread valid =>
      rw [graph_of_graph? known] at unread
      have appended : (former.withResult scheduled.nodes.nextId).results =
          graph.results ++ [scheduled.nodes.nextId] :=
        congrArg (· ++ [scheduled.nodes.nextId]) resolution.results_eq
      refine ⟨former.withResult scheduled.nodes.nextId, ?_, Or.inr ⟨?_, ?_, ?_⟩, fun differs => ?_⟩
      · rw [graph?_withOutput, if_pos rfl, known]
        rfl
      · rw [← resolution.isResult_eq]
        exact noResult
      · intro result member
        rw [← (resolution.keeps.alike result).source?]
        exact source?_ne_of_reader? unread result (resolution.results_eq ▸ member)
      · exact
          { results := appended, first := rfl,
            new := fun alive => scheduled.not_alive_nextId
              ((resolution.keeps.alive_iff _).mpr alive),
            alive := fun node => by
              rw [alive_withOutput_iff, resolution.keeps.alive_iff]
              rfl,
            isResult := by simp [isResult, role?_withOutput, firstOutput],
            sources := by simp [sources_withOutput, firstOutput] }
      · apply coherent.offers_withOutput known resolution.reordered resolution.resolved noResult
          unread
        intro name index named
        refine (differs name index named).resolve_left fun same => ?_
        rw [appended] at same
        simp at same

end Repeated

end Network

namespace Session

open Network

variable {session : Session} {id : GraphId} {graph : Graph}

/-- What is answered for a target gives out the tensor of the port that the target singles out.
If that is a port of no result, the answer is one of the outputs of the graph then; if it is
that of a result, the answer is the port itself and the results of the graph stay as they
are, so it is one of the outputs of the graph exactly if the graph has that result. -/
theorem Reachable.gives_out_target (reachable : session.Reachable)
    (found : session.network.graph? id = some graph) {target : OutputTarget}
    {output : OutputPort} {after : Network}
    (given : (Edit.addOutput id target).on session.network = (.ok output, after)) :
    ∃ nodes port current, session.network.order graph.currentRoots = .ok nodes ∧
      session.network.resolveTarget nodes target = .ok port ∧
      after.graph? id = some current ∧ after.tensorOwner output = after.tensorOwner port ∧
      (session.network.isResult port.node = false →
        output ∈ current.results.map firstOutput) ∧
      (session.network.isResult port.node → output = port ∧ current.results = graph.results ∧
        (port.index < session.network.outputCount port.node →
          (output ∈ current.results.map firstOutput ↔ port.node ∈ graph.results))) := by
  obtain ⟨scheduled, current, nodes, port, resolution, gives⟩ :=
    reachable.coherent.of_on_addOutput found given
  have owner := resolution.coherent.tensorOwner_of_givesOut resolution.found gives
  have resolved := resolution.resolveTarget_eq
  cases kind : session.network.isResult port.node with
  | false =>
      have noResult : scheduled.isResult port.node = false :=
        (resolution.isResult_eq _).trans kind
      obtain ⟨-, -, -, later, known, inside, -⟩ :=
        resolution.coherent.reads_of_givesOut resolution.found gives noResult
      exact ⟨nodes, port, later, resolution.ordered, resolved, known, owner, fun _ => inside,
        by simp [kind]⟩
  | true =>
      have isResult : scheduled.isResult port.node = true := (resolution.isResult_eq _).trans kind
      cases gives with
      | read noResult | added noResult =>
          rw [isResult] at noResult
          cases noResult
      | itself =>
          refine ⟨nodes, output, current, resolution.ordered, resolved, resolution.found, owner,
            by simp [kind], fun _ => ⟨rfl, resolution.results_eq, fun valid => ?_⟩⟩
          rw [reachable.regular.outputCount_of_isResult kind, Nat.lt_one_iff] at valid
          obtain ⟨node, index⟩ := output
          obtain rfl : index = 0 := valid
          rw [resolution.results_eq]
          simp [firstOutput]

/-- A result whose output a rectifier reads, and a graph of the result of that rectifier alone. -/
def bypassed : Session :=
  empty.run [
    .create (.parameter { elementType := .f32, shape := .fixed [2, 3] }) [] none (.text "feed"),
    .create .relu [⟨1, 0⟩] none (.text "first"),
    .create .result [⟨2, 0⟩] none (.text "inner"),
    .create .relu [⟨3, 0⟩] none (.text "second"),
    .create .result [⟨4, 0⟩] none (.text "outer"),
    .createGraph [5] [1] [] .absent (.text "graph")]

theorem bypassed_reachable : bypassed.Reachable :=
  ⟨_, rfl⟩

theorem answers_bypassed :
    (bypassed.network.graph? 1).map (·.results) = some [5] ∧
    bypassed.network.isResult 2 = false ∧ bypassed.network.node? 6 = none ∧
    ((Edit.addOutput 1 (.port ⟨2, 0⟩)).on bypassed.network).1 = .ok ⟨6, 0⟩ ∧
    ((Edit.addOutput 1 (.port ⟨3, 0⟩)).on bypassed.network).1 = .ok ⟨3, 0⟩ ∧
    (((Edit.addOutput 1 (.port ⟨3, 0⟩)).on bypassed.network).2.graph? 1).map (·.results) =
      some [5] ∧
    ((Edit.addOutput 1 (.node "Relu_2" 0)).on bypassed.network).1 = .ok ⟨6, 0⟩ ∧
    (((Edit.addOutput 1 (.node "Relu_2" 0)).on bypassed.network).2.node? 6).isSome := by
  cbv

theorem gives_out_bypassed :
    ∃ graph after current, bypassed.network.graph? 1 = some graph ∧
      (Edit.addOutput 1 (.port ⟨2, 0⟩)).on bypassed.network = (.ok ⟨6, 0⟩, after) ∧
      after.graph? 1 = some current ∧ ⟨6, 0⟩ ∈ current.results.map firstOutput ∧
      after.tensorOwner ⟨6, 0⟩ = after.tensorOwner ⟨2, 0⟩ := by
  obtain ⟨bounded, noResult, -, answer, -⟩ := answers_bypassed
  obtain ⟨graph, found, -⟩ := Option.map_eq_some_iff.mp bounded
  have given := Edit.on_eq_of_ok answer
  obtain ⟨nodes, port, current, -, resolved, known, owner, inside, -⟩ :=
    bypassed_reachable.gives_out_target found given
  obtain rfl : port = ⟨2, 0⟩ := by
    rw [resolveTarget] at resolved
    split at resolved
    · exact (Except.ok.inj resolved).symm
    · cases resolved
  exact ⟨graph, _, current, found, given, known, inside noResult, owner⟩

/-- A graph answers the output of a result that is merely within its reach, although that is none
of its outputs. -/
theorem inner_result_bypassed :
    bypassed.Reachable ∧
      ((Edit.addOutput 1 (.port ⟨3, 0⟩)).on bypassed.network).1 = .ok ⟨3, 0⟩ ∧
      ∃ current, ((Edit.addOutput 1 (.port ⟨3, 0⟩)).on bypassed.network).2.graph? 1 =
        some current ∧ ⟨3, 0⟩ ∉ current.results.map firstOutput := by
  obtain ⟨-, -, -, -, answer, bounded, -⟩ := answers_bypassed
  obtain ⟨current, known, results⟩ := Option.map_eq_some_iff.mp bounded
  refine ⟨bypassed_reachable, answer, current, known, ?_⟩
  rw [results]
  decide

/-- A target that is refused adds neither a result nor a node.  One that is answered adds a
result to the graph at most, at the end of its results: a new one that reads the port that the
target singles out, if that is a port of no result and no result of the graph reads it.  The
same target is then answered alike without another result, also after what nothing holds is
released, unless it names a node and the new result is called by that name. -/
theorem Reachable.giving_out_idempotent (reachable : session.Reachable)
    (found : session.network.graph? id = some graph) (target : OutputTarget) :
    (∀ error after, (Edit.addOutput id target).on session.network = (.error error, after) →
      (∃ current, after.graph? id = some current ∧ current.results = graph.results) ∧
        ∀ node, after.Alive node ↔ session.network.Alive node) ∧
    ∀ output after, (Edit.addOutput id target).on session.network = (.ok output, after) →
      ∃ nodes port current, session.network.order graph.currentRoots = .ok nodes ∧
        session.network.resolveTarget nodes target = .ok port ∧
        after.graph? id = some current ∧
        (current.results = graph.results ∧
            (∀ node, after.Alive node ↔ session.network.Alive node) ∨
          session.network.isResult port.node = false ∧
            (∀ result ∈ graph.results, session.network.source? ⟨result, 0⟩ ≠ some port) ∧
            AppendsResult session.network after graph current port output) ∧
        ((∀ name index, target = .node name index →
            current.results = graph.results ∨ defaultName .result output.node ≠ name) →
          ∀ again, again = after ∨ (∃ held, again = after.release held) →
            ∃ later last, (Edit.addOutput id target).on again = (.ok output, later) ∧
              later.graph? id = some last ∧ last.results = current.results) := by
  refine ⟨fun error after refused => ?_, fun output after given => ?_⟩
  · have keeps := Keeps.of_refused refused
    obtain ⟨current, known, frame⟩ := Option.map_eq_some_iff.mp
      ((keeps.graphs id).trans (congrArg (Option.map Graph.frame) found))
    exact ⟨⟨current, known, congrArg (·.2.2.1) frame⟩, keeps.alive_iff⟩
  · obtain ⟨scheduled, former, nodes, port, resolution, gives⟩ :=
      reachable.coherent.of_on_addOutput found given
    have coherent : after.Coherent := by
      have moves := Edit.follows_addOutput id target session.network
      rw [given] at moves
      exact reachable.coherent.of_moves moves
    obtain ⟨current, known, grows, offers⟩ := resolution.offers gives
    refine ⟨nodes, port, current, resolution.ordered, resolution.resolveTarget_eq, known, grows,
      fun differs again same => ?_⟩
    exact (offers differs).again coherent known same

theorem given_out_twice_bypassed :
    ∃ after current later last,
      (Edit.addOutput 1 (.node "Relu_2" 0)).on bypassed.network = (.ok ⟨6, 0⟩, after) ∧
      after.graph? 1 = some current ∧ current.results = [5, 6] ∧
      (Edit.addOutput 1 (.node "Relu_2" 0)).on (after.release []) = (.ok ⟨6, 0⟩, later) ∧
      later.graph? 1 = some last ∧ last.results = [5, 6] := by
  obtain ⟨bounded, -, dead, -, -, -, answer, present⟩ := answers_bypassed
  obtain ⟨graph, found, results⟩ := Option.map_eq_some_iff.mp bounded
  have alive := Option.isSome_iff_exists.mp present
  have given := Edit.on_eq_of_ok answer
  obtain ⟨-, port, current, -, -, known, grows, again⟩ :=
    (bypassed_reachable.giving_out_idempotent found _).2 _ _ given
  have extended : current.results = [5, 6] := by
    rcases grows with ⟨-, unchanged⟩ | ⟨-, -, appends⟩
    · obtain ⟨node, present⟩ := (unchanged 6).mp alive
      rw [dead] at present
      cases present
    · rw [appends.results, results]
      rfl
  have differs (name : String) (index : Nat)
      (named : OutputTarget.node "Relu_2" 0 = .node name index) :
      current.results = graph.results ∨ defaultName .result 6 ≠ name := by
    cases named
    exact Or.inr (by decide)
  obtain ⟨later, last, repeated, still, same⟩ := again differs _ (Or.inr ⟨[], rfl⟩)
  exact ⟨_, current, later, last, given, known, extended, repeated, still, same.trans extended⟩

end Session
end TensorGraph
