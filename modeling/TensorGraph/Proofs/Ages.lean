import TensorGraph.Proofs.Edits
import TensorGraph.Proofs.Runs

/-!
# Ages of schedules

No move gives a number of a graph out again or makes a schedule fresh without computing it
anew.  The schedule of a graph therefore only ages, by becoming stale and by being computed
again, and operations that edit neither edges nor boundaries do not age a fresh one at all.
-/

namespace TensorGraph

namespace Graph

/-- How often the schedule of a graph was computed and became stale. -/
def age (graph : Graph) : Nat :=
  2 * graph.revision + if graph.isFresh then 0 else 1

/-- What is known of a schedule when it is asked for. -/
def issue (graph : Graph) : Bool × Nat × List NodeId :=
  (graph.isFresh, graph.revision, graph.schedule)

variable {graph other : Graph}

theorem age_eq_of_issue (same : graph.issue = other.issue) : graph.age = other.age := by
  simp only [issue, Prod.mk.injEq] at same
  rw [age, age, same.1, same.2.1]

theorem isFresh_eq_of_issue (same : graph.issue = other.issue) : graph.isFresh = other.isFresh :=
  congrArg Prod.fst same

theorem age_le_stale (graph : Graph) : graph.age ≤ { graph with isFresh := false }.age := by
  rw [age, age]
  split <;> simp

theorem age_of_isFresh (isFresh : graph.isFresh) : graph.age = 2 * graph.revision := by
  rw [age, if_pos isFresh, Nat.add_zero]

theorem age_of_stale (isStale : graph.isFresh = false) : graph.age = 2 * graph.revision + 1 := by
  rw [age, isStale]
  rfl

theorem age_lt_of_stale (isFresh : graph.isFresh) (isStale : other.isFresh = false)
    (older : graph.age ≤ other.age) : graph.age < other.age := by
  rw [age_of_isFresh isFresh, age_of_stale isStale] at *
  omega

theorem age_modifyBoundary (graph : Graph) (part : Boundary)
    (change : List NodeId → List NodeId) :
    (graph.modifyBoundary part change).age = graph.age := by
  cases part <;> rfl

end Graph

namespace Network

/-- No number of a graph is given out again, and no schedule has become younger. -/
structure Ages (before after : Network) : Prop where
  numbers : before.graphs.nextId ≤ after.graphs.nextId
  graphs : ∀ id < before.graphs.nextId, ∀ later, after.graph? id = some later →
    ∃ graph, before.graph? id = some graph ∧ graph.age ≤ later.age

instance : IsPreorder Network Ages where
  refl _ := ⟨Nat.le_refl _, fun _ _ later found => ⟨later, found, Nat.le_refl _⟩⟩
  trans _ _ _ first second := by
    refine ⟨Nat.le_trans first.numbers second.numbers, fun id below later found => ?_⟩
    obtain ⟨middle, between, older⟩ :=
      second.graphs id (Nat.lt_of_lt_of_le below first.numbers) later found
    obtain ⟨graph, formerly, old⟩ := first.graphs id below middle between
    exact ⟨graph, formerly, Nat.le_trans old older⟩

section Ages

variable {before between after : Network}

theorem Ages.of_graphs (same : after.graphs = before.graphs) : Ages before after where
  numbers := Nat.le_of_eq (by rw [same])
  graphs id _ later found := ⟨later, by rwa [graph?, same] at found, Nat.le_refl _⟩

theorem Ages.report (ages : Ages before between) (event : Event) :
    Ages before (between.report event) :=
  ⟨ages.numbers, ages.graphs⟩

theorem ages_modifyGraph (network : Network) (id : GraphId) {change : Graph → Graph}
    (older : ∀ graph, graph.age ≤ (change graph).age) :
    Ages network (network.modifyGraph id change) where
  numbers := Nat.le_of_eq (network.graphs.nextId_modify id _).symm
  graphs other _ later found := by
    rw [graph?_modifyGraph] at found
    split at found
    · obtain ⟨graph, formerly, rfl⟩ := Option.map_eq_some_iff.mp found
      exact ⟨graph, formerly, older graph⟩
    · exact ⟨later, found, Nat.le_refl _⟩

theorem ages_modifyInfo (network : Network) (id : GraphId) :
    Ages network (network.modifyInfo id ({ · with isFresh := false })) where
  numbers := Nat.le_of_eq (network.graphs.nextId_modify id _).symm
  graphs other _ later found := by
    rw [graph?_modifyInfo] at found
    split at found
    · obtain ⟨graph, formerly, rfl⟩ := Option.map_eq_some_iff.mp found
      exact ⟨graph, formerly, graph.age_le_stale⟩
    · exact ⟨later, found, Nat.le_refl _⟩

theorem ages_touchGraph (node : NodeId) (network : Network) (id : GraphId) :
    Ages network (touchGraph node network id) := by
  rw [touchGraph]
  split
  · exact (network.ages_modifyInfo id).report _
  · exact refl_of Ages network

theorem ages_touchNode (network : Network) (node : NodeId) :
    Ages network (network.touchNode node) := by
  rw [touchNode]
  induction network.memberships node generalizing network with
  | nil => exact refl_of Ages network
  | cons id ids ih => exact trans_of Ages (ages_touchGraph node network id) (ih _)

theorem ages_touch (network : Network) (nodes : List NodeId) :
    Ages network (network.touch nodes) := by
  rw [touch]
  induction nodes generalizing network with
  | nil => exact refl_of Ages network
  | cons node nodes ih => exact trans_of Ages (network.ages_touchNode node) (ih _)

theorem Touches.ages {nodes : List NodeId} (touches : Touches nodes before after) :
    Ages before after := by
  obtain ⟨between, -, same, rfl⟩ := touches
  exact trans_of Ages (.of_graphs (congrArg Prod.fst same)) (between.ages_touch nodes)

theorem ages_recordRoots (network : Network) (id : GraphId) :
    Ages network (network.recordRoots id) :=
  network.ages_modifyGraph id fun _ => Nat.le_refl _

theorem ages_modifyBoundary (network : Network) (id : GraphId) (part : Boundary)
    (change : List NodeId → List NodeId) :
    Ages network ((network.modifyGraph id (·.modifyBoundary part change)).touchBoundary id) := by
  refine trans_of Ages (network.ages_modifyGraph id fun graph =>
    Nat.le_of_eq (graph.age_modifyBoundary part change).symm) ?_
  rw [touchBoundary]
  refine trans_of Ages ?_ (ages_recordRoots _ id)
  split
  · exact (ages_modifyGraph _ id Graph.age_le_stale).report _
  · exact refl_of Ages _

theorem ages_storeSchedule (network : Network) (id : GraphId) (schedule : List NodeId) :
    Ages network (network.storeSchedule id schedule) := by
  rw [storeSchedule]
  refine Ages.report (trans_of Ages (.of_graphs ?_) (ages_modifyGraph _ id ?_)) _
  · rw [graphs_joinAll, graphs_leaveAll]
  · intro graph
    change graph.age ≤ 2 * (graph.revision + 1)
    rw [Graph.age]
    split <;> omega

theorem ages_addNode (network : Network) (name : String) (operator : Operator)
    (sources : List OutputPort) (types : List TensorType) :
    Ages network (network.addNode name operator sources types) := by
  rw [addNode]
  exact .of_graphs (graphs_connectAll _ _ _)

theorem ages_addGraph (network : Network) (graph : Graph) :
    Ages network (network.addGraph graph) where
  numbers := by
    rw [addGraph, Store.nextId_push]
    exact Nat.le_succ _
  graphs id below later found := by
    rw [graph?_addGraph, if_neg (Nat.ne_of_lt below)] at found
    exact ⟨later, found, Nat.le_refl _⟩

theorem ages_dropGraph (network : Network) (id : GraphId) :
    Ages network (network.dropGraph id) where
  numbers := Nat.le_of_eq (network.graphs.nextId_erase id).symm
  graphs _ _ later found :=
    ⟨later, (network.graph?_dropGraph_eq_some.mp found).2, Nat.le_refl _⟩

theorem ages_retireGraph (network : Network) (id : GraphId) :
    Ages network (network.retireGraph id) where
  numbers := Nat.le_of_eq (network.graphs.nextId_modify id _).symm
  graphs _ _ later found :=
    ⟨later, (network.graph?_retireGraph_eq_some.mp found).2, Nat.le_refl _⟩

theorem Ages.of_move (move : Move before after) : Ages before after := by
  cases move with
  | rewired => exact (before.touches_rewire _ _ _).ages
  | rewiredAll => exact (before.touches_rewireAll _ _ _).ages
  | controlAdded => exact (before.touches_addControl _ _).ages
  | controlRemoved => exact (before.touches_removeControl _ _).ages
  | controlCleared => exact (before.touches_clearControl _ _).ages
  | touched => exact before.ages_touch _
  | created => exact ages_addNode _ _ _ _ _
  | outputAdded => exact trans_of Ages (ages_addNode _ _ _ _ _) (ages_modifyBoundary _ _ _ _)
  | rootsRecorded => exact ages_recordRoots _ _
  | scheduled => exact ages_storeSchedule _ _ _
  | boundaryAdded | boundaryRemoved => exact ages_modifyBoundary _ _ _ _
  | graphAdded => exact trans_of Ages (ages_addGraph _ _) (ages_recordRoots _ _)
  | graphRetired => exact ages_retireGraph _ _
  | graphDropped => exact ages_dropGraph _ _
  | graphRenamed => exact ages_modifyGraph _ _ fun _ => Nat.le_refl _
  | released => exact .of_graphs (graphs_release _ _)
  | withdrawn => exact .of_graphs (graphs_withdrawn _ _ _ _)
  | inferred | declared | renamed | named | logged => exact .of_graphs rfl

theorem Ages.of_moves (moves : Moves before after) : Ages before after := by
  induction moves with
  | refl => exact refl_of Ages before
  | tail _ move ih => exact trans_of Ages ih (.of_move move)

theorem age_le_of_moves (moves : Moves before after) {id : GraphId} {graph later : Graph}
    (formerly : before.graph? id = some graph) (found : after.graph? id = some later) :
    graph.age ≤ later.age := by
  obtain ⟨former, known, older⟩ :=
    (Ages.of_moves moves).graphs id (Store.lt_nextId (get?_of_graph? formerly)) later found
  rwa [Option.some.inj (formerly.symm.trans known)]

/-- A graph that is there before and after some moves was there all the time. -/
theorem exists_graph_between (first : Moves before between) (second : Moves between after)
    {id : GraphId} {graph later : Graph} (formerly : before.graph? id = some graph)
    (found : after.graph? id = some later) :
    ∃ middle, between.graph? id = some middle := by
  have given := Nat.lt_of_lt_of_le (Store.lt_nextId (get?_of_graph? formerly))
    (Ages.of_moves first).numbers
  obtain ⟨middle, known, -⟩ := (Ages.of_moves second).graphs id given later found
  exact ⟨middle, known⟩

end Ages

section Calm

/-- The graphs are exactly what they were. -/
def KeepsGraphs (before after : Network) : Prop :=
  after.graphs = before.graphs

instance : IsPreorder Network KeepsGraphs where
  refl _ := rfl
  trans _ _ _ first second := Eq.trans second first

/-- Moves after which graphs that were fresh and are still there have the same schedule,
still fresh. -/
structure Calm (before after : Network) : Prop where
  moves : Moves before after
  issues : ∀ id graph later, before.graph? id = some graph → graph.isFresh →
    after.graph? id = some later → later.issue = graph.issue

instance : IsPreorder Network Calm where
  refl _ := ⟨.refl, fun _ _ _ formerly _ found =>
    congrArg Graph.issue (Option.some.inj (found.symm.trans formerly))⟩
  trans _ _ _ first second := by
    refine ⟨first.moves.trans second.moves, fun id graph later formerly isFresh found => ?_⟩
    obtain ⟨middle, between⟩ :=
      exists_graph_between first.moves second.moves formerly found
    have same := first.issues id graph middle formerly isFresh between
    have stillFresh := (Graph.isFresh_eq_of_issue same).trans isFresh
    exact (second.issues id middle later between stillFresh found).trans same

theorem Calm.of_graphs {before after : Network} (moves : Moves before after)
    (same : ∀ id graph later, before.graph? id = some graph → graph.isFresh →
      after.graph? id = some later → later = graph) : Calm before after :=
  ⟨moves, fun id graph later formerly isFresh found =>
    congrArg Graph.issue (same id graph later formerly isFresh found)⟩

end Calm

end Network

namespace Edit

open Network

theorem within_change_keepsGraphs {update : Network → Network}
    (same : ∀ network, (update network).graphs = network.graphs) :
    (change update).Within KeepsGraphs := by
  intro network
  rw [on_change]
  exact same network

theorem keepsGraphs_create (operator : Operator) (sources : List OutputPort)
    (name : Option String) : (create operator sources name).Within KeepsGraphs := by
  intro network
  rcases on_create_cases operator sources name network with
    ⟨error, outcome⟩ | ⟨error, outcome⟩ | ⟨types, -, -, -, outcome⟩ <;> rw [outcome]
  · rfl
  · exact graphs_withdrawn _ _ _ _
  · exact graphs_connectAll _ _ _

/-- Operations that concern the types and the names of single nodes leave graphs alone. -/
theorem nodeKeeping_keepsGraphs : NodeKeeping KeepsGraphs where
  created := keepsGraphs_create
  inferred _ := within_inferNode fun _ _ => rfl
  redeclared _ _ refusal := within_redeclare (fun _ _ => rfl) refusal
  renamed _ _ := (within_ask _).bind fun _ => within_change_keepsGraphs fun _ => rfl
  namesSet port _ := within_updateNames (fun _ _ => rfl) port _
  namesAdded port _ := within_updateNames (fun _ _ => rfl) port _
  reported _ := within_change_keepsGraphs fun _ => rfl

theorem Follows.calm {α : Type} {edit : Edit α} (follows : edit.Follows)
    (keeps : edit.Within KeepsGraphs) : edit.Within Calm := by
  intro network
  refine .of_graphs (follows network) fun id graph later formerly _ found => ?_
  rw [graph?, keeps network] at found
  exact Option.some.inj (found.symm.trans formerly)

/-- Asking some graph for its schedule leaves a fresh graph alone. -/
theorem graph?_schedule_of_isFresh {network : Network} {other : GraphId} {graph : Graph}
    (found : network.graph? other = some graph) (isFresh : graph.isFresh) (id : GraphId) :
    ((schedule id).on network).2.graph? other = some graph := by
  rw [on_schedule]
  split
  · exact found
  next isStale =>
    have different : id ≠ other := by
      rintro rfl
      rw [graph_of_graph? found] at isStale
      exact isStale isFresh
    split
    · rw [graph?_storeSchedule, if_neg different, graph?_recordRoots, if_neg different, found]
    · rw [graph?_recordRoots, if_neg different, found]

theorem calm_schedule (id : GraphId) : (schedule id).Within Calm := by
  intro network
  refine .of_graphs (follows_schedule id network) fun other graph later formerly isFresh found => ?_
  rw [graph?_schedule_of_isFresh formerly isFresh] at found
  exact (Option.some.inj found).symm

/-- The new graph gets a number that no graph had before. -/
theorem calm_createGraph (results sinks parameters : List NodeId) :
    (createGraph results sinks parameters).Within Calm := by
  intro network
  refine .of_graphs (follows_createGraph results sinks parameters network)
    fun id graph later formerly isFresh found => ?_
  rcases on_createGraph_cases results sinks parameters network with
    ⟨error, outcome⟩ | ⟨-, -, -, scheduled, asked, outcome⟩
  · rw [outcome] at found
    exact Option.some.inj (found.symm.trans formerly)
  · have added : (network.addGraph
        { name := Graph.defaultName, parameters, results, sinks }).graph? id = some graph := by
      have older := Store.lt_nextId (get?_of_graph? formerly)
      rw [graph?_addGraph, if_neg (Nat.ne_of_lt older), formerly]
    have still : scheduled.2.graph? id = some later := by
      rcases outcome with ⟨error, outcome⟩ | ⟨nodes, -, outcome⟩ <;> rw [outcome] at found
      · exact (scheduled.2.graph?_dropGraph_eq_some.mp found).2
      · exact found
    rw [asked, graph?_schedule_of_isFresh added isFresh] at still
    exact (Option.some.inj still).symm

theorem calm_renameGraph (id : GraphId) (name : String) : (renameGraph id name).Within Calm := by
  intro network
  refine ⟨follows_renameGraph id name network, fun other graph later formerly _ found => ?_⟩
  rw [renameGraph, on_change, graph?_modifyGraph, formerly] at found
  split at found
  · obtain rfl := Option.some.inj found
    rfl
  · obtain rfl := Option.some.inj found
    rfl

theorem calm_dropGraph (network : Network) (id : GraphId) : Calm network (network.dropGraph id) :=
  .of_graphs (.single .graphDropped) fun _ _ _ formerly _ found =>
    Option.some.inj ((network.graph?_dropGraph_eq_some.mp found).2.symm.trans formerly)

theorem calm_retireGraph {network : Network} {id : GraphId} {graph : Graph}
    (found : network.graph? id = some graph) : Calm network (network.retireGraph id) :=
  .of_graphs (.single (.graphRetired found)) fun _ _ _ formerly _ later =>
    Option.some.inj ((network.graph?_retireGraph_eq_some.mp later).2.symm.trans formerly)

/-- Operations that edit neither edges nor boundaries do not age fresh schedules. -/
theorem graphKeeping_calm : GraphKeeping Calm where
  created _ _ _ := (follows_create _ _ _).calm (nodeKeeping_keepsGraphs.created _ _ _)
  inferred _ := (follows_inferNode _).calm (nodeKeeping_keepsGraphs.inferred _)
  redeclared _ _ _ := (follows_redeclare _ _ _).calm (nodeKeeping_keepsGraphs.redeclared _ _ _)
  renamed _ _ := (follows_rename _ _).calm (nodeKeeping_keepsGraphs.renamed _ _)
  namesSet _ _ := (follows_setNames _ _).calm (nodeKeeping_keepsGraphs.namesSet _ _)
  namesAdded _ _ := (follows_addNames _ _).calm (nodeKeeping_keepsGraphs.namesAdded _ _)
  reported _ := (follows_report _).calm (nodeKeeping_keepsGraphs.reported _)
  scheduled := calm_schedule
  graphCreated := calm_createGraph
  graphRenamed := calm_renameGraph
  graphRetired _ _ _ := calm_retireGraph
  graphDropped := calm_dropGraph

end Edit
end TensorGraph
