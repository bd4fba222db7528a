import TensorGraph.Proofs.Conflicts

/-!
# Boundaries of graphs

Each part of the boundary of a graph holds nodes of one role, none of them twice, and
the roots recorded for naming are those that the boundary gives at present.  Additions
are checked against the nodes that are already there and against one another, and every
edit of a boundary records the roots anew.
-/

namespace TensorGraph
namespace Network

/-- No part of a boundary lists a node twice. -/
def Unrepeated (network : Network) : Prop :=
  ∀ id graph, network.graph? id = some graph → ∀ part, (graph.boundary part).Nodup

/-- Nodes that a boundary accepts neither repeat one another nor a node that is there. -/
theorem nodup_of_checkBoundary {network : Network} {role : Role} {present nodes : List NodeId}
    (accepted : network.checkBoundary role present nodes = .ok ()) (nodup : present.Nodup) :
    (present ++ nodes).Nodup := by
  induction nodes generalizing present with
  | nil => simpa using nodup
  | cons node nodes ih =>
      rw [checkBoundary] at accepted
      split at accepted
      · cases accepted
      · split at accepted
        · cases accepted
        next absent =>
          have longer : (present ++ [node]).Nodup := by
            rw [← List.concat_eq_append]
            exact nodup.concat absent
          simpa using ih accepted longer

namespace Unrepeated

variable {before after : Network}

theorem of_graphs (unrepeated : before.Unrepeated)
    (graphs : ∀ id graph, after.graph? id = some graph →
      (∀ part, (graph.boundary part).Nodup) ∨
      ∃ former, before.graph? id = some former ∧ graph.boundary = former.boundary) :
    after.Unrepeated := by
  intro id graph found
  rcases graphs id graph found with nodup | ⟨former, formerly, same⟩
  · exact nodup
  · rw [same]
    exact unrepeated id former formerly

theorem of_same (unrepeated : before.Unrepeated)
    (same : ∀ id, after.graph? id = before.graph? id) : after.Unrepeated :=
  unrepeated.of_graphs fun id graph found => Or.inr ⟨graph, (same id).symm.trans found, rfl⟩

theorem of_edits (unrepeated : before.Unrepeated) {edited : List NodeId}
    (edits : Edits edited before after) : after.Unrepeated := by
  apply unrepeated.of_graphs
  intro id graph found
  obtain ⟨former, formerly, same⟩ := edits.exists_former found
  exact Or.inr ⟨former, formerly, Graph.boundary_eq_of_course same⟩

theorem nodup (unrepeated : before.Unrepeated) (id : GraphId) (part : Boundary) :
    ((before.graph id).boundary part).Nodup := by
  rw [Network.graph]
  cases found : before.graph? id with
  | none => cases part <;> exact List.nodup_nil
  | some graph => exact unrepeated id graph found part

theorem of_modifyBoundary (unrepeated : before.Unrepeated) (id : GraphId) (part : Boundary)
    {change : List NodeId → List NodeId}
    (nodup : (change ((before.graph id).boundary part)).Nodup) :
    ((before.modifyGraph id (·.modifyBoundary part change)).touchBoundary id).Unrepeated := by
  apply unrepeated.of_graphs
  intro other graph found
  rw [graph?_modifyBoundary] at found
  split at found
  next same =>
    obtain ⟨former, formerly, rfl⟩ := Option.map_eq_some_iff.mp found
    rw [same, graph_of_graph? formerly] at nodup
    refine Or.inl fun known => ?_
    change ((former.modifyBoundary part change).boundary known).Nodup
    rw [Graph.boundary_modifyBoundary]
    split
    next samePart => exact samePart ▸ nodup
    · exact unrepeated other former formerly known
  · exact Or.inr ⟨graph, found, rfl⟩

theorem of_addGraph (unrepeated : before.Unrepeated) (name : String)
    {parameters results sinks : List NodeId} (parametersNodup : parameters.Nodup)
    (resultsNodup : results.Nodup) (sinksNodup : sinks.Nodup) :
    (before.addGraph { name, parameters, results, sinks }).Unrepeated := by
  apply unrepeated.of_graphs
  intro id graph found
  rw [graph?_addGraph] at found
  split at found
  · obtain rfl := Option.some.inj found
    refine Or.inl fun part => ?_
    cases part with
    | parameters => exact parametersNodup
    | results => exact resultsNodup
    | sinks => exact sinksNodup
  · exact Or.inr ⟨graph, found, rfl⟩

/-- Every move keeps the boundaries free of repetitions; a new result is in no boundary
yet, since the nodes of boundaries are alive. -/
theorem of_move (move : Move before after) (coherent : before.Coherent)
    (unrepeated : before.Unrepeated) : after.Unrepeated := by
  cases move with
  | rewired valid reads => exact unrepeated.of_edits (edits_rewire valid reads)
  | rewiredAll alive valid => exact unrepeated.of_edits (edits_rewireAll alive valid)
  | controlAdded distinct alive present new =>
      exact unrepeated.of_edits (edits_addControl alive present)
  | controlRemoved alive known => exact unrepeated.of_edits (edits_removeControl alive)
  | controlCleared alive => exact unrepeated.of_edits (edits_clearControl alive)
  | touched => exact unrepeated.of_edits (edits_touch _ _)
  | created sensible valid inferred =>
      exact unrepeated.of_same fun id => graph?_addNode _ _ _ _ _ _
  | @outputAdded name port types id valid inferred =>
      have created : (before.addNode name .result [port] types).Unrepeated :=
        unrepeated.of_same fun id => graph?_addNode _ _ _ _ _ _
      apply created.of_modifyBoundary id .results
      rw [← List.concat_eq_append]
      refine (created.nodup id .results).concat fun member => ?_
      rw [Network.graph, graph?_addNode, ← Network.graph] at member
      have role : before.role? before.nodes.nextId = some Boundary.results.role :=
        coherent.role?_of_mem_boundary member
      exact before.not_alive_nextId (alive_of_role? role)
  | withdrawn => exact unrepeated.of_same (graph?_eq_of_graphs (graphs_withdrawn _ _ _ _))
  | inferred alive inferred => exact unrepeated.of_same fun _ => rfl
  | declared alive parameter => exact unrepeated.of_same fun _ => rfl
  | renamed => exact unrepeated.of_same fun _ => rfl
  | named valid free gives => exact unrepeated.of_same fun _ => rfl
  | rootsRecorded =>
      exact unrepeated.of_edits (edits_modifyGraph _ _ (fun _ => rfl) fun _ => rfl)
  | scheduled ordered =>
      apply unrepeated.of_graphs
      intro id graph found
      obtain ⟨former, formerly, same, -⟩ := of_graph?_storeSchedule _ _ _ found
      exact Or.inr ⟨former, formerly, same⟩
  | @boundaryAdded part id nodes accepted =>
      exact unrepeated.of_modifyBoundary id part
        (nodup_of_checkBoundary accepted (unrepeated.nodup id part))
  | @boundaryRemoved part id node present =>
      exact unrepeated.of_modifyBoundary id part ((unrepeated.nodup id part).erase node)
  | graphAdded parametersAccepted resultsAccepted sinksAccepted =>
      exact (unrepeated.of_addGraph _ (nodup_of_checkBoundary parametersAccepted List.nodup_nil)
        (nodup_of_checkBoundary resultsAccepted List.nodup_nil)
        (nodup_of_checkBoundary sinksAccepted List.nodup_nil)).of_edits
        (edits_modifyGraph _ _ (fun _ => rfl) fun _ => rfl)
  | graphRetired =>
      exact unrepeated.of_graphs fun id graph found =>
        Or.inr ⟨graph, (before.graph?_retireGraph_eq_some.mp found).2, rfl⟩
  | graphDropped =>
      exact unrepeated.of_graphs fun id graph found =>
        Or.inr ⟨graph, (before.graph?_dropGraph_eq_some.mp found).2, rfl⟩
  | graphRenamed =>
      exact unrepeated.of_edits (edits_modifyGraph _ _ (fun _ => rfl) fun _ => rfl)
  | logged => exact unrepeated.of_same fun _ => rfl
  | released => exact unrepeated.of_same fun id => graph?_release _ _ _

theorem of_moves (moves : Moves before after) (coherent : before.Coherent)
    (unrepeated : before.Unrepeated) : after.Unrepeated := by
  have kept (first second : Network) (move : Move first second)
      (known : first.Coherent ∧ first.Unrepeated) : second.Coherent ∧ second.Unrepeated :=
    ⟨known.1.of_move move, known.2.of_move move known.1⟩
  exact (moves.preserve kept ⟨coherent, unrepeated⟩).2

end Unrepeated

theorem unrepeated_empty : Network.empty.Unrepeated := by
  intro id graph found
  cases id <;> cases found

end Network

namespace Session

variable {session : Session}

theorem Reachable.unrepeated (reachable : session.Reachable) : session.network.Unrepeated :=
  Network.unrepeated_empty.of_moves reachable.moves Network.coherent_empty

/-- In every session that commands lead to, each part of the boundary of a graph lists nodes
of its role, none twice; the recorded roots are the results, sinks and parameters as they are
now, so that a naming is checked against the nodes that the graph answers as its schedule;
and a schedule that is held to be fresh contains the whole boundary. -/
theorem Reachable.boundary_sound (reachable : session.Reachable) {id : GraphId} {graph : Graph}
    (found : session.network.graph? id = some graph) :
    (graph.parameters.Nodup ∧
      ∀ node ∈ graph.parameters, session.network.role? node = some .parameter) ∧
    (graph.results.Nodup ∧
      ∀ node ∈ graph.results, session.network.role? node = some .result) ∧
    (graph.sinks.Nodup ∧ ∀ node ∈ graph.sinks, session.network.role? node = some .sink) ∧
    graph.roots = graph.results ++ graph.sinks ++ graph.parameters ∧
    session.network.members graph.toGraphInfo = ((Edit.schedule id).on session.network).1 ∧
    (graph.isFresh →
      ∀ node ∈ graph.results ++ graph.sinks ++ graph.parameters, node ∈ graph.schedule) := by
  have coherent := reachable.coherent
  have nodup := reachable.unrepeated id graph found
  have role := coherent.boundary id graph found
  refine ⟨⟨nodup .parameters, role .parameters⟩, ⟨nodup .results, role .results⟩,
    ⟨nodup .sinks, role .sinks⟩, reachable.recorded id graph found, ?_, ?_⟩
  · rw [coherent.members_eq reachable.recorded found, coherent.fst_schedule found]
  · intro isFresh node member
    have ordered := Network.ordered_of_order coherent.dependencies
      (coherent.alive_of_mem_currentRoots found) (coherent.fresh id graph found isFresh)
    exact ordered.mem_of_root member

/-- A graph whose boundary was extended by a second parameter and a result of the first one,
and lost its former result, before its schedule was computed anew. -/
def rebounded : Session :=
  empty.run [
    .create (.parameter { elementType := .f32, shape := .fixed [2, 3] }) [] none (.text "feed"),
    .create .relu [⟨1, 0⟩] none (.text "rectifier"),
    .create .result [⟨2, 0⟩] none (.text "outcome"),
    .createGraph [3] [1] [] .absent (.text "graph"),
    .create (.parameter { elementType := .f32, shape := .fixed [4] }) [] none (.text "second"),
    .addBoundary .parameters [4] "graph",
    .addOutput (.port ⟨1, 0⟩) "graph" .absent,
    .removeBoundary .results 3 "graph",
    .schedule "graph"]

theorem rebounded_reachable : rebounded.Reachable :=
  ⟨_, rfl⟩

theorem boundary_rebounded :
    ∃ graph, rebounded.network.graph? 1 = some graph ∧ graph.parameters = [1, 4] ∧
      graph.results = [5] ∧ graph.roots = [5, 1, 4] ∧
      rebounded.network.role? 5 = some .result ∧ 4 ∈ graph.schedule := by
  have found : rebounded.network.graph? 1 = some {
      name := "default_graph"
      parameters := [1, 4], results := [5], sinks := []
      schedule := [1, 5, 4], revision := 3, isFresh := true
      roster := [1, 5, 4], roots := [5, 1, 4] } := by
    cbv
  obtain ⟨-, ⟨-, results⟩, -, roots, -, inSchedule⟩ := rebounded_reachable.boundary_sound found
  exact ⟨_, found, rfl, rfl, roots, results 5 (by decide), inSchedule rfl 4 (by decide)⟩

end Session
end TensorGraph
