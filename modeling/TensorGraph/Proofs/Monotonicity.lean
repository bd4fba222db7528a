import TensorGraph.Proofs.Refinement
import TensorGraph.Proofs.Validation

/-!
# Inference under finer declarations

Declaring other types for the parameters leaves alone what all nodes read.  Where a pass
over a schedule comes to its end under finer declarations, every node has types by
recursion, and so it has under coarser ones, where the types by recursion fix no more;
hence the pass comes to its end there, too.
-/

namespace TensorGraph

namespace Edit

/-- Declare the element type and the shape of a parameter. -/
def declareType (id : NodeId) (type : TensorType) : Edit Unit := do
  declareElementType id type.elementType
  declareShape id type.shape

/-- Declare the types that are assigned to the parameters among the nodes of a graph, and
infer the types of all its nodes in turn. -/
def inferDeclared (id : GraphId) (declared : NodeId → TensorType) : Edit Unit := do
  let nodes ← schedule id
  let network ← get
  (nodes.filter (network.isParameter ·)).forM fun node => declareType node (declared node)
  nodes.forM inferNode

theorem follows_declareType (id : NodeId) (type : TensorType) : (declareType id type).Follows :=
  (follows_declareElementType id type.elementType).bind fun _ =>
    follows_declareShape id type.shape

end Edit

namespace Network

section Declarations

variable {network before between after : Network} {declared : NodeId → TensorType}
  {parameters : List NodeId}

/-- The given parameters declare the types that are assigned to them; otherwise nodes
compute and read what they did. -/
structure Declares (declared : NodeId → TensorType) (parameters : List NodeId)
    (before after : Network) : Prop where
  dependencies : Agree Node.dependencies before after
  wiring : ∀ id, (after.node? id).map wiring = (before.node? id).map fun node =>
    (if id ∈ parameters then .parameter (declared id) else node.operator, node.sources)

theorem Declares.refl (declared : NodeId → TensorType) (network : Network) :
    Declares declared [] network network :=
  ⟨.refl _ _, fun id => by simp only [List.not_mem_nil, if_false]; rfl⟩

theorem Declares.trans {initial : NodeId → TensorType} {earlier later : List NodeId}
    (first : Declares initial earlier before between)
    (second : Declares declared later between after)
    (still : ∀ id ∈ earlier, id ∈ later ∨ initial id = declared id)
    (members : ∀ id, id ∈ parameters ↔ id ∈ earlier ∨ id ∈ later) :
    Declares declared parameters before after := by
  refine ⟨first.dependencies.trans second.dependencies, fun id => ?_⟩
  have here := first.wiring id
  have there := second.wiring id
  cases former : before.node? id with
  | none =>
      rw [former, Option.map_none, Option.map_eq_none_iff] at here
      rw [there, here, Option.map_none, Option.map_none]
  | some node =>
      rw [former, Option.map_some] at here
      obtain ⟨middle, found, wires⟩ := Option.map_eq_some_iff.mp here
      obtain ⟨operator, sources⟩ := Prod.mk.inj wires
      rw [there, found, Option.map_some, Option.map_some, operator, sources]
      by_cases last : id ∈ later
      · simp [last, members]
      · by_cases now : id ∈ earlier
        · simp [last, now, members, (still id now).resolve_left last]
        · simp [last, now, members]

theorem Declares.cons {id : NodeId} (first : Declares declared [id] before between)
    (second : Declares declared parameters between after) :
    Declares declared (id :: parameters) before after :=
  first.trans second (fun _ _ => Or.inr rfl) (by simp)

theorem Declares.isParameter (declares : Declares declared parameters before after) {id : NodeId}
    (isParameter : before.isParameter id) : after.isParameter id := by
  obtain ⟨node, type, alive, operator⟩ := isParameter_iff.mp isParameter
  have wires := declares.wiring id
  rw [alive, Option.map_some] at wires
  obtain ⟨later, found, wires⟩ := Option.map_eq_some_iff.mp wires
  have declares : later.operator =
      if id ∈ parameters then .parameter (declared id) else node.operator :=
    (Prod.mk.inj wires).1
  rw [operator] at declares
  split at declares
  all_goals exact isParameter_iff.mpr ⟨later, _, found, declares⟩

theorem on_redeclare_declares {id : NodeId} {former : TensorType}
    (parameter : (network.node? id).map (·.operator) = some (.parameter former))
    (declared : NodeId → TensorType) (update : TensorType → TensorType)
    (refusal : NodeLabel → Misuse) (updated : update former = declared id) :
    ∃ after, (Edit.redeclare id update refusal).on network = (.ok (), after) ∧
      Declares declared [id] network after ∧
      (after.node? id).map (·.operator) = some (.parameter (declared id)) := by
  obtain ⟨node, alive, operator⟩ := Option.map_eq_some_iff.mp parameter
  refine ⟨_, on_redeclare alive operator update refusal,
    ⟨agree_modifyNode _ _ fun _ => rfl, fun other => ?_⟩, ?_⟩
  · rw [node?_modifyNode]
    by_cases here : id = other
    · subst here
      rw [if_pos rfl, Option.map_map, ← updated]
      simp only [List.mem_cons_self, if_true]
      rfl
    · simp only [here, Ne.symm here, if_false, List.mem_singleton]
      rfl
  · rw [node?_modifyNode, if_pos rfl, alive, ← updated]
    rfl

theorem on_declareType {id : NodeId} (isParameter : network.isParameter id)
    (declared : NodeId → TensorType) :
    ∃ after, (Edit.declareType id (declared id)).on network = (.ok (), after) ∧
      Declares declared [id] network after := by
  obtain ⟨node, former, alive, operator⟩ := isParameter_iff.mp isParameter
  have parameter : (network.node? id).map (·.operator) = some (.parameter former) := by
    rw [alive, Option.map_some, operator]
  obtain ⟨between, retyped, first, parameter⟩ := on_redeclare_declares parameter
    (fun node => { former with elementType := (declared node).elementType })
    ({ · with elementType := (declared id).elementType }) .typeOfNonParameter rfl
  obtain ⟨after, reshaped, second, -⟩ := on_redeclare_declares parameter declared
    ({ · with shape := (declared id).shape }) .shapeOfNonParameter rfl
  refine ⟨after, ?_, ?_⟩
  · rw [Edit.declareType, Edit.on_bind, Edit.declareElementType, retyped]
    exact reshaped
  · exact first.trans second (by simp) (by simp)

/-- Declaring types of parameters is not refused. -/
theorem on_forM_declareType (declared : NodeId → TensorType)
    (areParameters : ∀ id ∈ parameters, network.isParameter id) :
    ∃ after, (parameters.forM fun id => Edit.declareType id (declared id)).on network =
        (.ok (), after) ∧
      Declares declared parameters network after := by
  induction parameters generalizing network with
  | nil => exact ⟨network, rfl, .refl declared network⟩
  | cons id parameters ih =>
      obtain ⟨isParameter, restParameters⟩ := List.forall_mem_cons.mp areParameters
      obtain ⟨between, declaredFirst, first⟩ := on_declareType isParameter declared
      obtain ⟨after, declaredRest, rest⟩ := ih fun other member =>
        first.isParameter (restParameters other member)
      refine ⟨after, ?_, first.cons rest⟩
      change (Edit.declareType id (declared id) >>= fun _ =>
        parameters.forM fun id => Edit.declareType id (declared id)).on network = _
      rw [Edit.on_bind, declaredFirst]
      exact declaredRest

end Declarations

section Recursion

/-- The nodes read the same in both networks, and their operators in the first refine
those in the second. -/
def Finer (nodes : List NodeId) (fine coarse : Network) : Prop :=
  ∀ id ∈ nodes, ∀ node, fine.node? id = some node →
    ∃ other, coarse.node? id = some other ∧ node.operator.Refines other.operator ∧
      other.sources = node.sources

variable {network fine coarse : Network} {nodes : List NodeId}

theorem Declares.finer {parameters : List NodeId} {finer coarser : NodeId → TensorType}
    (first : Declares finer parameters network fine)
    (second : Declares coarser parameters network coarse)
    (refines : ∀ id ∈ parameters, (finer id).Refines (coarser id)) : Finer nodes fine coarse := by
  intro id _ node alive
  have here := first.wiring id
  have there := second.wiring id
  cases former : network.node? id with
  | none =>
      rw [alive, former] at here
      cases here
  | some common =>
      rw [alive, former, Option.map_some, Option.map_some] at here
      rw [former, Option.map_some] at there
      obtain ⟨operator, sources⟩ := Prod.mk.inj (Option.some.inj here)
      obtain ⟨other, found, wires⟩ := Option.map_eq_some_iff.mp there
      obtain ⟨otherOperator, otherSources⟩ := Prod.mk.inj wires
      refine ⟨other, found, ?_, otherSources.trans sources.symm⟩
      rw [operator, otherOperator]
      split
      next declares => exact .declares (refines id declares)
      · exact .refl _

theorem getD_refines {types others : List TensorType}
    (refines : List.Forall₂ TensorType.Refines types others) (index : Nat) :
    (types.getD index default).Refines (others.getD index default) := by
  induction refines generalizing index with
  | nil => exact .refl _
  | cons here rest ih =>
      cases index with
      | zero => exact here
      | succ index => exact ih index

theorem operandOf_mono (finer : Finer nodes fine coarse) {port : OutputPort}
    (member : port.node ∈ nodes) (alive : fine.Alive port.node) {types others : List TensorType}
    (refines : List.Forall₂ TensorType.Refines types others) :
    (fine.operandOf types port).Refines (coarse.operandOf others port) := by
  obtain ⟨node, found⟩ := alive
  obtain ⟨other, coarseFound, operator, -⟩ := finer port.node member node found
  constructor
  · exact getD_refines refines port.index
  · rw [operandOf, operandOf, found, coarseFound]
    exact operator.constantValues?_eq

/-- Where nodes have types by recursion, they have coarser ones in a coarser network. -/
theorem HasTypes.mono (finer : Finer nodes fine coarse)
    (closed : ∀ id ∈ nodes, ∀ dependency ∈ fine.dependencies id, dependency ∈ nodes)
    {id : NodeId} {types : List TensorType} (typed : fine.HasTypes id types)
    (member : id ∈ nodes) :
    ∃ others, coarse.HasTypes id others ∧ List.Forall₂ TensorType.Refines types others := by
  induction typed with
  | @intro id node types typesOf alive sources inferred ih =>
      obtain ⟨other, found, operator, sameSources⟩ := finer id member node alive
      have inside (source : OutputPort) (reads : source ∈ node.sources) : source.node ∈ nodes :=
        closed id member source.node (mem_dependencies_of_source alive reads)
      have known (dependency : NodeId) (reads : dependency ∈ node.sources.map (·.node)) :
          ∃ others, coarse.HasTypes dependency others ∧
            List.Forall₂ TensorType.Refines (typesOf dependency) others := by
        obtain ⟨source, member, rfl⟩ := List.mem_map.mp reads
        exact ih source member (inside source member)
      choose! othersOf hasTypes refines using known
      have operands : List.Forall₂ Operand.Refines
          (node.sources.map fun source => fine.operandOf (typesOf source.node) source)
          (node.sources.map fun source => coarse.operandOf (othersOf source.node) source) := by
        rw [List.forall₂_map_left_iff, List.forall₂_map_right_iff, List.forall₂_same]
        exact fun source reads => operandOf_mono finer (inside source reads)
          (sources source reads).alive (refines _ (List.mem_map_of_mem reads))
      obtain ⟨others, coarseInferred, refinesTypes⟩ :=
        Operator.infer_mono operator operands inferred
      refine ⟨others, .intro othersOf found (fun source reads => ?_) ?_, refinesTypes⟩
      · rw [sameSources] at reads
        exact hasTypes _ (List.mem_map_of_mem reads)
      · rw [sameSources]
        exact coarseInferred

end Recursion

section Pass

variable {network : Network} {nodes : List NodeId} {finer coarser : NodeId → TensorType}

/-- A pass that comes to its end under finer declarations also does so under coarser
ones, and stores no more. -/
theorem forM_inferNode_mono {fine coarse fineAfter : Network} (regular : fine.Regular)
    (coarseRegular : coarse.Regular) (fineRefines : Finer nodes fine coarse)
    (same : Agree Node.dependencies fine coarse) (sequenced : fine.Sequenced [] nodes)
    (closed : ∀ id ∈ nodes, ∀ dependency ∈ fine.dependencies id, dependency ∈ nodes)
    (ended : (nodes.forM Edit.inferNode).on fine = (.ok (), fineAfter)) :
    ∃ after, (nodes.forM Edit.inferNode).on coarse = (.ok (), after) ∧
      ∀ id ∈ nodes,
        List.Forall₂ TensorType.Refines (fineAfter.storedTypes id) (after.storedTypes id) := by
  have typed := hasTypes_of_forM_inferNode regular sequenced ended
  have coarseTyped (id : NodeId) (member : id ∈ nodes) :=
    (typed id member).mono fineRefines closed member
  have coarseSequenced := sequenced.of_agree same
  have coarseClosed (id : NodeId) (member : id ∈ nodes) (dependency : NodeId)
      (depends : dependency ∈ coarse.dependencies id) : dependency ∈ nodes :=
    closed id member dependency (same.dependencies_eq id ▸ depends)
  have passes := (forM_inferNode_ok_iff coarseRegular coarseSequenced coarseClosed).mpr
    fun id member => (coarseTyped id member).imp fun _ both => both.1
  rcases outcome : (nodes.forM Edit.inferNode).on coarse with ⟨result, after⟩
  rw [outcome] at passes
  obtain rfl : result = .ok () := passes
  refine ⟨after, rfl, fun id member => ?_⟩
  obtain ⟨others, hasTypes, refines⟩ := coarseTyped id member
  have stored := hasTypes_of_forM_inferNode coarseRegular coarseSequenced outcome id member
  rwa [← hasTypes.unique stored]

variable {scheduled : Network} {id : GraphId} {graph : Graph}

theorem on_inferDeclared (answered : (Edit.schedule id).on network = (.ok nodes, scheduled))
    (regular : scheduled.Regular) (declared : NodeId → TensorType) :
    ∃ between, Declares declared (nodes.filter (scheduled.isParameter ·)) scheduled between ∧
      between.Regular ∧
      (Edit.inferDeclared id declared).on network = (nodes.forM Edit.inferNode).on between := by
  have areParameters (node : NodeId) (member : node ∈ nodes.filter (scheduled.isParameter ·)) :
      scheduled.isParameter node :=
    (List.mem_filter.mp member).2
  obtain ⟨between, outcome, declares⟩ := on_forM_declareType declared areParameters
  have moves : Moves scheduled (((nodes.filter (scheduled.isParameter ·)).forM fun node =>
      Edit.declareType node (declared node)).on scheduled).2 :=
    Edit.within_forM (fun node _ => Edit.follows_declareType node (declared node)) scheduled
  rw [outcome] at moves
  refine ⟨between, declares, regular.of_moves moves, ?_⟩
  rw [Edit.inferDeclared, Edit.on_bind, answered]
  dsimp only
  rw [Edit.on_bind, Edit.on_get]
  dsimp only
  rw [Edit.on_bind, outcome]

/-- An inference under declared types that comes to its end also does so under coarser
ones, and stores no more. -/
theorem Coherent.inferDeclared_mono (coherent : network.Coherent) (regular : network.Regular)
    (found : network.graph? id = some graph)
    (refines : ∀ node, network.Reaches graph.currentRoots node → network.isParameter node →
      (finer node).Refines (coarser node))
    {fineAfter : Network}
    (ended : (Edit.inferDeclared id finer).on network = (.ok (), fineAfter)) :
    ∃ after, (Edit.inferDeclared id coarser).on network = (.ok (), after) ∧
      ∀ node, network.Reaches graph.currentRoots node →
        List.Forall₂ TensorType.Refines (fineAfter.storedTypes node) (after.storedTypes node) := by
  obtain ⟨nodes, scheduled, answered, -⟩ := Edit.of_on_bind ended
  have keeps := Keeps.of_schedule network id
  have moves := Edit.follows_schedule id network
  have ordered := coherent.fst_schedule found
  rw [answered] at keeps moves ordered
  have reaches := coherent.mem_iff_reaches found ordered.symm
  have listed := coherent.ordered found ordered.symm
  have sequenced := (listed.sequenced (alive_of_order ordered.symm)).of_keeps keeps
  obtain ⟨fine, fineDeclares, fineRegular, fineOutcome⟩ :=
    on_inferDeclared answered (regular.of_moves moves) finer
  obtain ⟨coarse, coarseDeclares, coarseRegular, coarseOutcome⟩ :=
    on_inferDeclared answered (regular.of_moves moves) coarser
  rw [fineOutcome] at ended
  rw [coarseOutcome]
  have finerNetwork : Finer nodes fine coarse := by
    refine fineDeclares.finer coarseDeclares fun node member => ?_
    obtain ⟨inside, isParameter⟩ := List.mem_filter.mp member
    exact refines node ((reaches node).mp inside) (keeps.isParameter node ▸ isParameter)
  have closed (node : NodeId) (member : node ∈ nodes) (dependency : NodeId)
      (depends : dependency ∈ fine.dependencies node) : dependency ∈ nodes := by
    rw [fineDeclares.dependencies.dependencies_eq, keeps.dependencies] at depends
    exact listed.mem_of_dependency member depends
  obtain ⟨after, passes, stored⟩ := forM_inferNode_mono fineRegular coarseRegular finerNetwork
    (fineDeclares.dependencies.symm.trans coarseDeclares.dependencies)
    (sequenced.of_agree fineDeclares.dependencies) closed ended
  exact ⟨after, passes, fun node reached => stored node ((reaches node).mpr reached)⟩

end Pass

end Network

namespace Session

variable {session : Session}

/-- Where the inference along the schedule of a graph comes to its end under declared
types of its parameters, it does so under any that fix no more, and what it then stores
for a node within reach fixes no more than what it stored before. -/
theorem Reachable.inference_monotone (reachable : session.Reachable) {id : GraphId} {graph : Graph}
    (found : session.network.graph? id = some graph) {finer coarser : NodeId → TensorType}
    (refines : ∀ node, session.network.Reaches graph.currentRoots node →
      session.network.isParameter node → (finer node).Refines (coarser node))
    {fineAfter : Network}
    (ended : (Edit.inferDeclared id finer).on session.network = (.ok (), fineAfter)) :
    ∃ after, (Edit.inferDeclared id coarser).on session.network = (.ok (), after) ∧
      ∀ node, session.network.Reaches graph.currentRoots node →
        List.Forall₂ TensorType.Refines (fineAfter.storedTypes node) (after.storedTypes node) :=
  reachable.coherent.inferDeclared_mono reachable.regular found refines ended

/-- A parameter that is put after itself and then reshaped by a constant pattern. -/
def stacked : Session :=
  empty.run [
    .create (.parameter { elementType := .f32, shape := .unranked }) [] none (.text "data"),
    .create (.constant .i64 [2] [-1, 6]) [] none (.text "pattern"),
    .create (.concat 0) [⟨1, 0⟩, ⟨1, 0⟩] none (.text "stack"),
    .create (.reshape false) [⟨3, 0⟩, ⟨2, 0⟩] none (.text "rows"),
    .create .result [⟨4, 0⟩] none (.text "outcome"),
    .createGraph [5] [1] [] .absent (.text "graph")]

theorem stacked_reachable : stacked.Reachable :=
  ⟨_, rfl⟩

theorem graph?_stacked :
    stacked.network.graph? 1 = some {
      name := "default_graph"
      parameters := [1], results := [5], sinks := []
      schedule := [1, 3, 2, 4, 5], revision := 1, isFresh := true
      roster := [1, 3, 2, 4, 5], roots := [5, 1] } ∧
    stacked.network.order [5, 1] = .ok [1, 3, 2, 4, 5] ∧
    ((Edit.inferDeclared 1 fun _ => { elementType := .f32, shape := .ranked [none, some 3] }).on
      stacked.network).1 = .ok () := by
  cbv

theorem storedTypes_stacked :
    ∃ fineAfter after,
      (Edit.inferDeclared 1 fun _ => { elementType := .f32, shape := .ranked [none, some 3] }).on
        stacked.network = (.ok (), fineAfter) ∧
      (Edit.inferDeclared 1 fun _ => { elementType := .dynamic, shape := .unranked }).on
        stacked.network = (.ok (), after) ∧
      ∀ node ∈ [1, 3, 2, 4, 5],
        List.Forall₂ TensorType.Refines (fineAfter.storedTypes node) (after.storedTypes node) := by
  obtain ⟨found, ordered, succeeds⟩ := graph?_stacked
  have ended := Edit.on_eq_of_ok succeeds
  have refines : TensorType.Refines { elementType := .f32, shape := .ranked [none, some 3] }
      { elementType := .dynamic, shape := .unranked } :=
    ⟨ElementType.refines_dynamic _, PartialShape.refines_unranked _⟩
  obtain ⟨after, coarseEnded, stored⟩ := stacked_reachable.inference_monotone found
    (fun _ _ _ => refines) ended
  refine ⟨_, after, ended, coarseEnded, fun node member => stored node ?_⟩
  exact (stacked_reachable.coherent.mem_iff_reaches found ordered node).mp member

end Session
end TensorGraph
