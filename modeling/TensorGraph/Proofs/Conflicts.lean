import TensorGraph.Proofs.Validation

/-!
# Conflicts of names

Naming a tensor is checked against the graphs that its owner knows, which are those
that had the owner in their schedule when it was last computed.  In such a graph the
check looks at everything within reach of the current roots, whether the schedule is
fresh or not, since the recorded roots are always the current ones.  An owner that was
wired into a graph since then knows nothing of it, and a name of another tensor of the
graph is not refused.
-/

namespace TensorGraph

open Relation

namespace NameSet

theorem mem_foldl_insert {name : String} {names : List String} {set : NameSet} :
    name ∈ names.foldl (fun set name => insert name set) set ↔ name ∈ names ∨ name ∈ set := by
  induction names generalizing set with
  | nil => simp
  | cons first names ih =>
      rw [List.foldl_cons, ih, mem_insert, List.mem_cons]
      tauto

theorem mem_ofList {name : String} {names : List String} :
    name ∈ ofList names ↔ name ∈ names := by
  simp [ofList, mem_foldl_insert]

theorem mem_union {name : String} {left right : NameSet} :
    name ∈ union left right ↔ name ∈ left ∨ name ∈ right := by
  rw [union, mem_foldl_insert, or_comm]

end NameSet

namespace Network

/-- The roots recorded for every graph are the current ones. -/
def Recorded (network : Network) : Prop :=
  ∀ id graph, network.graph? id = some graph → graph.roots = graph.currentRoots

/-- The roots of a graph, as recorded and as they are. -/
def anchors (graph : Graph) : List NodeId × List NodeId :=
  (graph.roots, graph.currentRoots)

namespace Recorded

variable {before between after : Network}

theorem of_graphs (recorded : before.Recorded)
    (graphs : ∀ id graph, after.graph? id = some graph →
      graph.roots = graph.currentRoots ∨
      ∃ former, before.graph? id = some former ∧ anchors graph = anchors former) :
    after.Recorded := by
  intro id graph found
  rcases graphs id graph found with done | ⟨former, formerly, same⟩
  · exact done
  · simp only [anchors, Prod.mk.injEq] at same
    rw [same.1, same.2]
    exact recorded id former formerly

theorem of_same (recorded : before.Recorded) (same : ∀ id, after.graph? id = before.graph? id) :
    after.Recorded :=
  recorded.of_graphs fun id graph found => Or.inr ⟨graph, (same id).symm.trans found, rfl⟩

theorem of_modifyGraph (recorded : before.Recorded) (id : GraphId) {change : Graph → Graph}
    (changes : ∀ graph, anchors (change graph) = anchors graph ∨
      (change graph).roots = (change graph).currentRoots) :
    (before.modifyGraph id change).Recorded := by
  apply recorded.of_graphs
  intro other graph found
  rw [graph?_modifyGraph] at found
  split at found
  · obtain ⟨former, formerly, rfl⟩ := Option.map_eq_some_iff.mp found
    rcases changes former with same | current
    · exact Or.inr ⟨former, formerly, same⟩
    · exact Or.inl current
  · exact Or.inr ⟨graph, found, rfl⟩

theorem of_touches (recorded : before.Recorded) {nodes : List NodeId}
    (touches : Touches nodes before after) : after.Recorded := by
  obtain ⟨between, -, same, rfl⟩ := touches
  apply recorded.of_graphs
  intro id graph found
  rw [graph?_touch, graph?_eq_of_graphs (congrArg Prod.fst same)] at found
  obtain ⟨former, formerly, rfl⟩ := Option.map_eq_some_iff.mp found
  refine Or.inr ⟨former, formerly, ?_⟩
  split <;> rfl

theorem of_touchBoundary (recorded : before.Recorded) (id : GraphId) (part : Boundary)
    (change : List NodeId → List NodeId) :
    ((before.modifyGraph id (·.modifyBoundary part change)).touchBoundary id).Recorded := by
  apply recorded.of_graphs
  intro other graph found
  rw [graph?_modifyBoundary] at found
  split at found
  · obtain ⟨former, -, rfl⟩ := Option.map_eq_some_iff.mp found
    exact Or.inl rfl
  · exact Or.inr ⟨graph, found, rfl⟩

theorem of_storeSchedule (recorded : before.Recorded) {id : GraphId}
    (current : (before.graph id).roots = (before.graph id).currentRoots)
    (schedule : List NodeId) : (before.storeSchedule id schedule).Recorded := by
  apply recorded.of_graphs
  intro other graph found
  rw [graph?_storeSchedule] at found
  split at found
  next same =>
    obtain ⟨former, formerly, rfl⟩ := Option.map_eq_some_iff.mp found
    rw [same, graph_of_graph? formerly] at current
    exact Or.inl current
  · exact Or.inr ⟨graph, found, rfl⟩

/-- Every move keeps the recorded roots current. -/
theorem of_move (move : Move before after) (recorded : before.Recorded) : after.Recorded := by
  cases move with
  | rewired valid reads => exact recorded.of_touches (touches_rewire _ _ _ _)
  | rewiredAll alive valid => exact recorded.of_touches (touches_rewireAll _ _ _ _)
  | controlAdded distinct alive present new => exact recorded.of_touches (touches_addControl _ _ _)
  | controlRemoved alive known => exact recorded.of_touches (touches_removeControl _ _ _)
  | controlCleared alive => exact recorded.of_touches (touches_clearControl _ _ _)
  | touched => exact recorded.of_touches (touches_touch _ _)
  | created sensible valid inferred => exact recorded.of_same fun id => graph?_addNode _ _ _ _ _ _
  | outputAdded valid inferred =>
      exact of_touchBoundary (recorded.of_same fun id => graph?_addNode _ _ _ _ _ _) _ _ _
  | withdrawn => exact recorded.of_same (graph?_eq_of_graphs (graphs_withdrawn _ _ _ _))
  | inferred alive inferred => exact recorded.of_same fun _ => rfl
  | declared alive parameter => exact recorded.of_same fun _ => rfl
  | renamed => exact recorded.of_same fun _ => rfl
  | named valid free gives => exact recorded.of_same fun _ => rfl
  | rootsRecorded => exact recorded.of_modifyGraph _ fun _ => Or.inr rfl
  | scheduled ordered current => exact recorded.of_storeSchedule current _
  | boundaryAdded accepted => exact recorded.of_touchBoundary _ _ _
  | boundaryRemoved present => exact recorded.of_touchBoundary _ _ _
  | graphAdded parametersAccepted resultsAccepted sinksAccepted =>
      apply recorded.of_graphs
      intro id graph found
      rw [graph?_recordRoots] at found
      split at found
      · obtain ⟨former, -, rfl⟩ := Option.map_eq_some_iff.mp found
        exact Or.inl rfl
      next different =>
        rw [graph?_addGraph, if_neg (Ne.symm different)] at found
        exact Or.inr ⟨graph, found, rfl⟩
  | graphRetired =>
      exact recorded.of_graphs fun id graph found =>
        Or.inr ⟨graph, (before.graph?_retireGraph_eq_some.mp found).2, rfl⟩
  | graphDropped =>
      exact recorded.of_graphs fun id graph found =>
        Or.inr ⟨graph, (before.graph?_dropGraph_eq_some.mp found).2, rfl⟩
  | graphRenamed => exact recorded.of_modifyGraph _ fun _ => Or.inl rfl
  | logged => exact recorded.of_same fun _ => rfl
  | released => exact recorded.of_same fun id => graph?_release _ _ _

end Recorded

theorem recorded_empty : Network.empty.Recorded := by
  intro id graph found
  cases id <;> cases found

theorem Recorded.of_moves {before after : Network} (moves : Moves before after)
    (recorded : before.Recorded) : after.Recorded :=
  moves.preserve (fun _ _ move recorded => recorded.of_move move) recorded

section Checks

variable {network : Network} {id : GraphId} {graph : Graph} {owner : OutputPort}
  {names : NameSet}

/-- The members of a graph are what its current roots reach. -/
theorem Coherent.members_eq (coherent : network.Coherent) (recorded : network.Recorded)
    (found : network.graph? id = some graph) :
    network.members graph.toGraphInfo = network.order graph.currentRoots := by
  rw [members]
  split
  next isFresh =>
    rw [coherent.roster id graph found, living_eq_self (coherent.schedule id graph found),
      coherent.fresh id graph found isFresh]
  · rw [recorded id graph found, living_eq_self (coherent.alive_of_mem_currentRoots found)]

theorem holder?_eq_none_iff {ports : List OutputPort} :
    network.holder? names ports = none ↔
      ∀ port ∈ ports, ∀ name ∈ names, name ∉ network.ownNames port := by
  simp [holder?, List.findSome?_eq_none_iff]

/-- No output within reach of the roots carries one of the names, apart from the owner
and from results. -/
def Free (network : Network) (roots : List NodeId) (owner : OutputPort) (names : List String) :
    Prop :=
  ∀ other : OutputPort, other ≠ owner → network.isResult other.node = false →
    network.Reaches roots other.node → ∀ name ∈ names, name ∉ network.ownNames other

/-- No output of the given nodes carries one of the names, apart from the owner and from
results. -/
def FreeAmong (network : Network) (nodes : List NodeId) (owner : OutputPort)
    (names : List String) : Prop :=
  ∀ other : OutputPort, other ≠ owner → network.isResult other.node = false →
    other.node ∈ nodes → ∀ name ∈ names, name ∉ network.ownNames other

theorem freeAmong_iff {roots nodes : List NodeId}
    (members : ∀ node, node ∈ nodes ↔ network.Reaches roots node) :
    network.FreeAmong nodes owner names ↔ network.Free roots owner names := by
  simp only [FreeAmong, members, Free]

/-- Only a live node has outputs that carry names. -/
theorem freeAmong_living {nodes : List NodeId} :
    network.FreeAmong (network.living nodes) owner names ↔ network.FreeAmong nodes owner names := by
  constructor
  · intro free other different noResult listed name given carries
    have alive := alive_of_lt_outputCount (lt_outputCount_of_mem_ownNames carries)
    exact free other different noResult (mem_living.mpr ⟨listed, alive⟩) name given carries
  · intro free other different noResult living
    exact free other different noResult (mem_living.mp living).1

/-- The check within a graph whose members are known succeeds exactly if the names are free among
them, provided that the owner is one. -/
theorem checkNamesWithin_eq_ok_iff {nodes : List NodeId}
    (members : network.members (network.info id) = .ok nodes) :
    network.checkNamesWithin owner names id = .ok () ↔
      (owner.node ∈ nodes → network.FreeAmong nodes owner names) := by
  rw [checkNamesWithin, members]
  change (if owner.node ∈ nodes then _ else _) = Except.ok () ↔ _
  by_cases known : owner.node ∈ nodes
  · rw [if_pos known, forall_prop_of_true known]
    have free : network.holder? names ((network.ownerPorts nodes).filter (· ≠ owner)) = none ↔
        network.FreeAmong nodes owner names := by
      rw [holder?_eq_none_iff]
      constructor
      · intro unheld other different noResult inside name given carries
        refine unheld other (List.mem_filter.mpr ⟨?_, by simpa using different⟩) name given carries
        exact mem_ownerPorts.mpr ⟨inside, noResult, lt_outputCount_of_mem_ownNames carries⟩
      · intro free other listed name given carries
        obtain ⟨owned, different⟩ := List.mem_filter.mp listed
        obtain ⟨inside, noResult, -⟩ := mem_ownerPorts.mp owned
        exact free other (by simpa using different) noResult inside name given carries
    rw [← free]
    split
    next taken =>
      refine iff_of_false (fun ok => by cases ok) fun none => ?_
      rw [none] at taken
      cases taken
    next none => exact iff_of_true rfl none
  · rw [if_neg known]
    exact iff_of_true rfl fun inside => absurd inside known

/-- The check within a graph whose members are what some roots reach succeeds exactly if there is
no cycle within reach, and the names are free there if the owner is within reach. -/
theorem checkNamesWithin_eq_ok_iff_of_roots
    (closed : ∀ id, ∀ dependency ∈ network.dependencies id, network.Alive dependency)
    {roots : List NodeId} (alive : ∀ root ∈ roots, network.Alive root)
    (members : network.members (network.info id) = network.order roots) :
    network.checkNamesWithin owner names id = .ok () ↔
      (∀ node, network.Reaches roots node → ¬ TransGen network.DependsOn node node) ∧
      (network.Reaches roots owner.node → network.Free roots owner names) := by
  rcases network.order_answers roots with ⟨nodes, ordered, -⟩ | ⟨again, refused, reached, cycle⟩
  · have listed := ordered_of_order closed alive ordered
    have acyclic (node : NodeId) (reached : network.Reaches roots node) :
        ¬ TransGen network.DependsOn node node :=
      listed.acyclic node ((listed.mem_iff node).mpr reached)
    rw [checkNamesWithin_eq_ok_iff (members.trans ordered), listed.mem_iff,
      freeAmong_iff listed.mem_iff, and_iff_right acyclic]
  · refine iff_of_false (fun accepted => ?_) fun both => both.1 again reached cycle
    rw [checkNamesWithin, members, refused] at accepted
    cases accepted

/-- The members of a graph are what its current roots reach. -/
theorem Coherent.checkNamesWithin_eq_ok_iff (coherent : network.Coherent)
    (recorded : network.Recorded) (found : network.graph? id = some graph) :
    network.checkNamesWithin owner names id = .ok () ↔
      (∀ node, network.Reaches graph.currentRoots node →
        ¬ TransGen network.DependsOn node node) ∧
      (network.Reaches graph.currentRoots owner.node →
        network.Free graph.currentRoots owner names) := by
  refine checkNamesWithin_eq_ok_iff_of_roots coherent.dependencies
    (coherent.alive_of_mem_currentRoots found) ?_
  rw [info_of_graph? found, coherent.members_eq recorded found]

theorem Coherent.free_of_checkNames (coherent : network.Coherent) (recorded : network.Recorded)
    (found : network.graph? id = some graph) (known : owner.node ∈ graph.schedule)
    (reached : network.Reaches graph.currentRoots owner.node)
    (accepted : network.checkNames owner names = .ok ()) :
    network.Free graph.currentRoots owner names := by
  rw [checkNames] at accepted
  split at accepted
  next none =>
    rw [none]
    intro other _ _ _ name given
    cases given
  · have knows : id ∈ network.memberships owner.node := (coherent.knows_iff found).mpr known
    exact ((coherent.checkNamesWithin_eq_ok_iff recorded found).mp
      (forM_eq_ok_iff.mp accepted id knows)).2 reached

end Checks

end Network

/-- A node without the names of its outputs. -/
def Node.nameless (node : Node) : Node :=
  { node with outputs := node.outputs.map fun tensor => { tensor with names := [] } }

namespace Network

section Naming

variable (network : Network) (owner : OutputPort) (update : NameSet → NameSet)

/-- The network in which a tensor has other names. -/
def renamed : Network :=
  network.modifyTensor owner fun tensor => { tensor with names := update tensor.names }

theorem agree_renamed : Agree Node.nameless network (network.renamed owner update) := by
  refine agree_modifyNode network owner.node fun node => ?_
  have outputs : (node.outputs.modify owner.index fun tensor =>
      { tensor with names := update tensor.names }).map
        (fun tensor => { tensor with names := [] }) =
      node.outputs.map fun tensor => { tensor with names := [] } := by
    apply List.ext_getElem?
    intro place
    simp only [List.getElem?_map, List.getElem?_modify]
    split <;> simp [Function.comp_def]
  rw [Node.nameless, outputs]
  rfl

theorem dependencies_renamed (id : NodeId) :
    (network.renamed owner update).dependencies id = network.dependencies id :=
  ((network.agree_renamed owner update).map Node.dependencies).dependencies_eq id

theorem isResult_renamed (id : NodeId) :
    (network.renamed owner update).isResult id = network.isResult id := by
  have role : (network.renamed owner update).role? id = network.role? id :=
    (network.agree_renamed owner update).map (·.operator.role) id
  rw [isResult, role, isResult]

theorem ownNames_renamed_of_ne {other : OutputPort} (different : other ≠ owner) :
    (network.renamed owner update).ownNames other = network.ownNames other := by
  rw [ownNames, renamed, tensor?_modifyTensor, if_neg (Ne.symm different), ownNames]

theorem mem_ownNames_renamed {name : String}
    (carries : name ∈ (network.renamed owner update).ownNames owner) :
    name ∈ update (network.ownNames owner) := by
  rw [ownNames, renamed, tensor?_modifyTensor, if_pos rfl] at carries
  rw [ownNames]
  cases found : network.tensor? owner with
  | none => simp [found] at carries
  | some tensor => simpa [found] using carries

end Naming

end Network

namespace Edit

/-- A naming is refused without effect, or its names are free and given to the owner. -/
theorem on_updateNames_cases (port : OutputPort) (given : NameSet) (update : NameSet → NameSet)
    (network : Network) :
    (∃ error, (updateNames port given update).on network = (.error error, network)) ∨
    network.checkNames (network.tensorOwner port) given = .ok () ∧
      (updateNames port given update).on network =
        (.ok (), network.renamed (network.tensorOwner port) update) := by
  rw [updateNames, on_bind, checkPort, on_ask]
  split
  next outcome =>
    obtain ⟨-, rfl⟩ := Prod.mk.inj outcome
    rw [on_bind, on_get]
    dsimp only
    rw [on_bind, on_ask]
    cases checked : network.checkNames (network.tensorOwner port) given with
    | error error => exact Or.inl ⟨error, rfl⟩
    | ok _ => exact Or.inr ⟨rfl, rfl⟩
  next error after outcome =>
    obtain ⟨-, rfl⟩ := Prod.mk.inj outcome
    exact Or.inl ⟨error, rfl⟩

theorem of_on_updateNames {port : OutputPort} {given : NameSet} {update : NameSet → NameSet}
    {network after : Network}
    (outcome : (updateNames port given update).on network = (.ok (), after)) :
    network.checkNames (network.tensorOwner port) given = .ok () ∧
      after = network.renamed (network.tensorOwner port) update := by
  rcases on_updateNames_cases port given update network with ⟨error, refused⟩ | ⟨free, gives⟩
  · rw [refused] at outcome
    cases outcome
  · rw [gives] at outcome
    exact ⟨free, (Prod.mk.inj outcome).2.symm⟩

end Edit

namespace Session

variable {session : Session}

theorem Reachable.recorded (reachable : session.Reachable) : session.network.Recorded :=
  Network.recorded_empty.of_moves reachable.moves

/-- A naming that is accepted leaves no other tensor within reach of a graph with one of
the given names, if the owner of the names is within reach of the graph and the graph is
fresh or had the owner in its schedule when that was last computed. -/
theorem Reachable.names_free (reachable : session.Reachable) {id : GraphId} {graph : Graph}
    (found : session.network.graph? id = some graph) {port : OutputPort}
    (reached : session.network.Reaches graph.currentRoots (session.network.tensorOwner port).node)
    (known : graph.isFresh ∨ (session.network.tensorOwner port).node ∈ graph.schedule)
    {names : List String} {naming : Edit Unit}
    (gives : naming = Edit.setNames port names ∨ naming = Edit.addNames port names)
    {after : Network} (accepted : naming.on session.network = (.ok (), after)) :
    after.Free graph.currentRoots (session.network.tensorOwner port) names := by
  have coherent := reachable.coherent
  have scheduled : (session.network.tensorOwner port).node ∈ graph.schedule := by
    rcases known with isFresh | member
    · exact (coherent.mem_iff_reaches found (coherent.fresh id graph found isFresh) _).mpr reached
    · exact member
  have outcome : ∃ update,
      session.network.checkNames (session.network.tensorOwner port) (.ofList names) = .ok () ∧
        after = session.network.renamed (session.network.tensorOwner port) update := by
    rcases gives with rfl | rfl
    · exact ⟨_, Edit.of_on_updateNames accepted⟩
    · exact ⟨_, Edit.of_on_updateNames accepted⟩
  obtain ⟨update, checked, rfl⟩ := outcome
  have free := coherent.free_of_checkNames reachable.recorded found scheduled reached checked
  intro other different noResult inReach name given carries
  rw [Network.isResult_renamed] at noResult
  rw [Network.reaches_congr fun id _ => Network.dependencies_renamed _ _ _ id] at inReach
  rw [Network.ownNames_renamed_of_ne _ _ _ different] at carries
  exact free other different noResult inReach name (NameSet.mem_ofList.mpr given) carries

/-- A result of a graph reads a rectifier that was made after the schedule of the graph
was computed; the rectifier reads another one, which has a name. -/
def wiredIn : Session :=
  empty.run [
    .create (.parameter { elementType := .f32, shape := .fixed [1] }) [] (some "data")
      (.text "data"),
    .create .relu [⟨1, 0⟩] (some "a") (.text "a"),
    .setNames ⟨2, 0⟩ ["t"],
    .create .result [⟨2, 0⟩] none (.text "result"),
    .createGraph [3] [1] [] .absent (.text "graph"),
    .create .relu [⟨2, 0⟩] (some "b") (.text "b"),
    .setSource ⟨3, 0⟩ ⟨4, 0⟩]

theorem wiredIn_reachable : wiredIn.Reachable :=
  ⟨_, rfl⟩

theorem graph?_wiredIn : wiredIn.network.graph? 1 = some {
      name := "default_graph"
      parameters := [1], results := [3], sinks := []
      schedule := [1, 2, 3], revision := 1, isFresh := false
      roster := [1, 2, 3], roots := [3, 1] } ∧
    wiredIn.network.dependencies 3 = [4] ∧ wiredIn.network.dependencies 4 = [2] := by
  cbv

theorem names_wiredIn :
    wiredIn.network.tensorOwner ⟨2, 0⟩ = ⟨2, 0⟩ ∧ wiredIn.network.tensorOwner ⟨4, 0⟩ = ⟨4, 0⟩ ∧
    wiredIn.network.isResult 2 = false ∧ wiredIn.network.ownNames ⟨2, 0⟩ = ["t"] ∧
    ((Edit.addNames ⟨2, 0⟩ ["s"]).on wiredIn.network).1 = .ok () ∧
    ((Edit.setNames ⟨4, 0⟩ ["t"]).on wiredIn.network).1 = .ok () := by
  cbv

theorem reaches_wiredIn : wiredIn.network.Reaches [3, 1] 4 ∧ wiredIn.network.Reaches [3, 1] 2 := by
  obtain ⟨-, ofResult, ofLatter⟩ := graph?_wiredIn
  have second : wiredIn.network.DependsOn 3 4 := by
    rw [Network.DependsOn, ofResult]
    decide
  have first : wiredIn.network.DependsOn 4 2 := by
    rw [Network.DependsOn, ofLatter]
    decide
  have reached : wiredIn.network.Reaches [3, 1] 4 := ⟨3, by decide, .single second⟩
  exact ⟨reached, reached.step first⟩

theorem names_free_wiredIn :
    ((Edit.addNames ⟨2, 0⟩ ["s"]).on wiredIn.network).2.Free [3, 1] ⟨2, 0⟩ ["s"] := by
  obtain ⟨owner, -, -, -, accepted, -⟩ := names_wiredIn
  have reached : wiredIn.network.Reaches [3, 1] (wiredIn.network.tensorOwner ⟨2, 0⟩).node := by
    rw [owner]
    exact reaches_wiredIn.2
  have known : (wiredIn.network.tensorOwner ⟨2, 0⟩).node ∈ [1, 2, 3] := by
    rw [owner]
    decide
  have free := wiredIn_reachable.names_free graph?_wiredIn.1 reached (Or.inr known) (Or.inr rfl)
    (Edit.on_eq_of_ok accepted)
  rwa [owner] at free

/-- The new rectifier takes the name that another tensor within reach already has, since
no graph knows it yet. -/
theorem setNames_wiredIn :
    wiredIn.network.tensorOwner ⟨4, 0⟩ = ⟨4, 0⟩ ∧ wiredIn.network.Reaches [3, 1] 4 ∧
      ((Edit.setNames ⟨4, 0⟩ ["t"]).on wiredIn.network).1 = .ok () ∧
      ¬ ((Edit.setNames ⟨4, 0⟩ ["t"]).on wiredIn.network).2.Free [3, 1] ⟨4, 0⟩ ["t"] := by
  obtain ⟨-, owner, noResult, carries, -, accepted⟩ := names_wiredIn
  refine ⟨owner, reaches_wiredIn.1, accepted, fun free => ?_⟩
  obtain ⟨-, renamed⟩ := Edit.of_on_updateNames (Edit.on_eq_of_ok accepted)
  rw [owner] at renamed
  rw [Edit.setNames, renamed] at free
  apply free ⟨2, 0⟩ (by decide) _ _ "t" (by decide)
  · rw [Network.ownNames_renamed_of_ne _ _ _ (by decide), carries]
    decide
  · exact (Network.isResult_renamed _ _ _ _).trans noResult
  · rw [Network.reaches_congr fun id _ => Network.dependencies_renamed _ _ _ id]
    exact reaches_wiredIn.2

end Session
end TensorGraph
