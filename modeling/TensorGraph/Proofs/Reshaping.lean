import Mathlib
import TensorGraph.Proofs.Rebuilding
import TensorGraph.Proofs.Requests

/-!
# Reshaping

A reshape that succeeds has declared the shapes that were asked for and nothing else.  The nodes
within reach of the graph are up to date then, so they store what a network infers that is built
anew from what they compute, new shapes included.  None of this depends on how often or in which
order the requests were made.
-/

namespace TensorGraph

namespace Network

section Shapes

variable {network before after : Network} {node : NodeId}

/-- Shapes that are declared for different parameters in turn are all declared in the end. -/
theorem redeclared_withShapes {shapes : List (NodeId × PartialShape)}
    (parameters : ∀ entry ∈ shapes, network.isParameter entry.1)
    (once : (shapes.map Prod.fst).Nodup) :
    Redeclared (shapes.map Prod.fst) network (network.withShapes shapes) ∧
      ∀ entry ∈ shapes,
        ((network.withShapes shapes).declaration? entry.1).map (·.shape) = some entry.2 := by
  obtain ⟨after, declares, redeclared, declared⟩ := on_declareShapes parameters
  rw [on_declareShapes_eq parameters] at declares
  obtain rfl := (Prod.mk.inj declares).2
  refine ⟨redeclared, fun entry member => ?_⟩
  let shapeOf (node : NodeId) : PartialShape :=
    ((shapes.find? (·.1 = node)).map (·.2)).getD default
  have asked (request : NodeId × PartialShape) (inside : request ∈ shapes) :
      request.2 = shapeOf request.1 := by
    obtain ⟨other, found⟩ : ∃ other, shapes.find? (·.1 = request.1) = some other :=
      Option.isSome_iff_exists.mp (List.find?_isSome.mpr ⟨request, inside, by simp⟩)
    have same : other.1 = request.1 := by simpa using List.find?_some found
    obtain rfl := List.inj_on_of_nodup_map once (List.mem_of_find?_eq_some found) inside same
    simp only [shapeOf, found, Option.map_some, Option.getD_some]
  rw [declared shapeOf asked entry.1 (List.mem_map_of_mem member), asked entry member]

/-- The outline of a parameter shows the element type that it declares. -/
theorem elementType_of_outlines (outlines : Agree outline before after) (node : NodeId) :
    (after.declaration? node).map (·.elementType) =
      (before.declaration? node).map (·.elementType) := by
  have shown (operator : Operator) :
      (declares? (withoutShape operator)).map (·.elementType) =
        (declares? operator).map (·.elementType) := by
    cases operator <;> rfl
  have agree : Agree (fun node => (declares? node.operator).map (·.elementType)) before after := by
    simpa only [outline, shown] using
      outlines.map fun node => (declares? node.operator).map (·.elementType)
  rw [declaration?_eq, declaration?_eq, Option.map_bind, Option.map_bind]
  exact agree.bind_eq node

theorem declaration?_of_outlines (outlines : Agree outline before after) {declared : TensorType}
    (former : before.declaration? node = some declared) {shape : PartialShape}
    (shapes : (after.declaration? node).map (·.shape) = some shape) :
    after.declaration? node = some { declared with shape } := by
  have elementTypes := elementType_of_outlines outlines node
  obtain ⟨current, known, rfl⟩ := Option.map_eq_some_iff.mp shapes
  rw [known, former] at elementTypes
  have same : current.elementType = declared.elementType := Option.some.inj elementTypes
  rw [known, ← same]

/-- A parameter that no shape was declared for is as before after whatever changes nothing but
types, schedules and memberships. -/
theorem Redeclared.kept_of_outside {parameters : List NodeId} {declared : Network}
    (changed : Redeclared parameters before declared) (keeps : Keeps declared after)
    (regularBefore : before.Regular) (regularAfter : after.Regular)
    (isParameter : before.isParameter node) (outside : node ∉ parameters) :
    after.declaration? node = before.declaration? node ∧
      (after.node? node).map (·.outputs) = (before.node? node).map (·.outputs) := by
  obtain ⟨former, known⟩ := exists_declaration isParameter
  have untouched := changed.others node outside
  have redeclared : declared.declaration? node = some former := by
    rw [declaration?, untouched]
    exact known
  have now := (keeps.declaration? node).trans redeclared
  have stored : after.storedTypes node = declared.storedTypes node := by
    rw [regularAfter.storedTypes_of_declaration? now, storedTypes, untouched]
    exact (regularBefore.storedTypes_of_declaration? known).symm
  exact ⟨now.trans known.symm, by rw [keeps.outputs_eq stored, untouched]⟩

end Shapes

section Validated

variable {network after : Network} {id : GraphId} {graph : Graph}

/-- If all nodes within reach store their types by recursion, then they are up to date. -/
theorem upToDate_of_hasTypes {roots : List NodeId}
    (typed : ∀ node, network.Reaches roots node →
      network.HasTypes node (network.storedTypes node)) {node : NodeId}
    (reached : network.Reaches roots node) : network.UpToDate node := by
  intro found alive
  obtain ⟨typesOf, also, sources, inferred⟩ := typed node reached
  obtain rfl := Option.some.inj (alive.symm.trans also)
  have stored (source : OutputPort) (member : source ∈ found.sources) :
      network.storedTypes source.node = typesOf source.node :=
    (typed _ (reached.step (mem_dependencies_of_source alive member))).unique
      (sources source member)
  rw [infer, operands_eq_of_stored stored, inferred, storedTypes, alive, Option.elim_some]

theorem Coherent.exists_order_of_validated (coherent : network.Coherent)
    (regular : network.Regular) (found : network.graph? id = some graph)
    (validated : (Edit.validate id).on network = (.ok (), after)) :
    ∃ nodes, network.order graph.currentRoots = .ok nodes := by
  rcases coherent.validate_cases regular found with
    ⟨error, failed, -, refused, -⟩ | ⟨nodes, -, -, ordered, -⟩
  · rw [refused] at validated
    cases validated
  · exact ⟨nodes, ordered⟩

end Validated

section Reshaping

/-- What a successful reshape comes to: the parameters that were asked for declare the shapes that
were asked for, and nothing else has another declaration, name, source or boundary; and the nodes
within reach of the graph have the types that they get when they are all created anew. -/
structure Reshaped (before after : Network) (id : GraphId) (graph : Graph)
    (requests : List (ShapeTarget × PartialShape)) : Prop where
  outlines : Agree outline before after
  graphs : ∀ other, (after.graph? other).map Graph.frame = (before.graph? other).map Graph.frame
  requested : ∀ request ∈ requests, ∃ parameter declared,
    before.parameterOf? id request.1 = some parameter ∧
    before.declaration? parameter = some declared ∧
    after.declaration? parameter = some { declared with shape := request.2 } ∧
    after.storedTypes parameter = [{ declared with shape := request.2 }]
  kept : ∀ parameter, before.isParameter parameter →
    (∀ request ∈ requests, before.parameterOf? id request.1 ≠ some parameter) →
    after.declaration? parameter = before.declaration? parameter ∧
    (after.node? parameter).map (·.outputs) = (before.node? parameter).map (·.outputs)
  rebuilt : ∃ nodes fresh, before.order graph.currentRoots = .ok nodes ∧
    (Edit.copyNodes after nodes).on Network.empty = (.ok (), fresh) ∧
    ∀ node, before.Reaches graph.currentRoots node →
      (fresh.node? (copyOf nodes node)).map typing = (after.node? node).map typing

variable {network after : Network} {id : GraphId} {graph : Graph}
  {requests : List (ShapeTarget × PartialShape)}

/-- A successful reshape has declared what was asked for and then validated the graph. -/
theorem Coherent.effect_of_reshape (coherent : network.Coherent) (regular : network.Regular)
    (found : network.graph? id = some graph)
    (accepted : (Edit.reshape id requests).on network = (.ok (), after)) :
    ∃ shapes declared,
      (requests.foldlM (Edit.addRequest id) []).on network = (.ok shapes, network) ∧
      Redeclared (shapes.map Prod.fst) network declared ∧
      (∀ entry ∈ shapes, (declared.declaration? entry.1).map (·.shape) = some entry.2) ∧
      Keeps declared after ∧
      (∃ nodes, declared.order graph.currentRoots = .ok nodes) ∧
      ∀ node, declared.Reaches graph.currentRoots node →
        declared.HasTypes node (after.storedTypes node) := by
  obtain ⟨shapes, validated, resolved, validates, rfl⟩ := coherent.on_reshape_ok_iff.mp accepted
  have parameters := coherent.isParameter_of_addRequests resolved
  obtain ⟨-, once, -⟩ := of_addRequests (by simp) resolved
  obtain ⟨changed, shapesDeclared⟩ := redeclared_withShapes parameters once
  have moves := Edit.follows_declareShapes shapes network
  rw [on_declareShapes_eq parameters] at moves
  have declaredCoherent := coherent.of_moves moves
  have declaredRegular := regular.of_moves moves
  have declaredFound := (changed.graphs id).trans found
  have keeps := declaredCoherent.keeps_validate declaredRegular declaredFound
  rw [validates] at keeps
  exact ⟨shapes, network.withShapes shapes, resolved, changed, shapesDeclared,
    keeps.trans (Steady.of_report _ _).keeps,
    declaredCoherent.exists_order_of_validated declaredRegular declaredFound validates,
    (declaredCoherent.validated declaredRegular declaredFound validates).1⟩

/-- Nodes within reach of a graph that store their types by recursion can be created anew in the
order of the graph. -/
theorem Coherent.rebuilt (coherent : network.Coherent) (found : network.graph? id = some graph)
    (outlines : Agree outline network after) (linked : after.Linked) (sensible : after.Sensible)
    {nodes : List NodeId} (ordered : network.order graph.currentRoots = .ok nodes)
    (typed : ∀ node, after.Reaches graph.currentRoots node →
      after.HasTypes node (after.storedTypes node)) :
    ∃ fresh, (Edit.copyNodes after nodes).on Network.empty = (.ok (), fresh) ∧
      ∀ node, network.Reaches graph.currentRoots node →
        (fresh.node? (copyOf nodes node)).map typing = (after.node? node).map typing := by
  have dependencies := outlines.map Node.dependencies
  have listed := coherent.ordered found ordered
  have reaches {node : NodeId} :
      after.Reaches graph.currentRoots node ↔ network.Reaches graph.currentRoots node :=
    reaches_congr fun id _ => dependencies.dependencies_eq id
  obtain ⟨fresh, copied, same⟩ := copyNodes_of_upToDate linked sensible
    ((listed.sequenced (alive_of_order ordered)).of_agree dependencies) fun node member =>
      upToDate_of_hasTypes typed (reaches.mpr ((listed.mem_iff node).mp member))
  exact ⟨fresh, copied, fun node reached => same node ((listed.mem_iff node).mpr reached)⟩

theorem Coherent.reshaped (coherent : network.Coherent) (regular : network.Regular)
    (linked : network.Linked) (sensible : network.Sensible)
    (found : network.graph? id = some graph)
    (accepted : (Edit.reshape id requests).on network = (.ok (), after)) :
    Reshaped network after id graph requests := by
  have moves := Edit.follows_reshape id requests network
  rw [accepted] at moves
  have afterRegular := regular.of_moves moves
  obtain ⟨shapes, declared, resolved, changed, shapesDeclared, keeps, ⟨nodes, ordered⟩, typed⟩ :=
    coherent.effect_of_reshape regular found accepted
  have outlines := changed.outlines.trans keeps.outlines
  have parameters := coherent.isParameter_of_addRequests resolved
  obtain ⟨-, -, demanded, listed⟩ := of_addRequests (by simp) resolved
  refine ⟨outlines, fun other => ?_, fun request member => ?_,
    fun parameter isParameter unasked => ?_, ?_⟩
  · rw [keeps.graphs, changed.graphs]
  · obtain ⟨entry, demand⟩ := demanded request member
    have inside := (listed entry).mpr (Or.inr ⟨request, member, demand⟩)
    obtain ⟨parameter, resolves, rfl⟩ := Option.map_eq_some_iff.mp demand
    obtain ⟨former, known⟩ := exists_declaration (parameters _ inside)
    have shape : (after.declaration? parameter).map (·.shape) = some request.2 := by
      rw [keeps.declaration?]
      exact shapesDeclared _ inside
    have now := declaration?_of_outlines outlines known shape
    exact ⟨parameter, former, resolves, known, now, afterRegular.storedTypes_of_declaration? now⟩
  · refine changed.kept_of_outside keeps regular afterRegular isParameter fun inside => ?_
    obtain ⟨entry, member, rfl⟩ := List.mem_map.mp inside
    obtain ⟨request, asked, demand⟩ := ((listed entry).mp member).resolve_left (by simp)
    obtain ⟨parameter, resolves, rfl⟩ := Option.map_eq_some_iff.mp demand
    exact unasked request asked resolves
  · have orderedBefore := order_ok_of_outlines changed.outlines.symm ordered
    obtain ⟨fresh, copied, same⟩ := coherent.rebuilt found outlines
      (linked.of_moves moves regular) (sensible.of_moves moves) orderedBefore
      fun node reached => keeps.hasTypes_iff.mpr (typed node (keeps.reaches_iff.mp reached))
    exact ⟨nodes, fresh, orderedBefore, copied, same⟩

end Reshaping

end Network

namespace Session

variable {session : Session}

theorem Reachable.sensible (reachable : session.Reachable) : session.network.Sensible :=
  Network.sensible_empty.of_moves reachable.moves

/-- The same requests in another order or number have the same outcome: both reshapes are refused,
or both come to one network, in which the parameters that were asked for have the shapes that were
asked for and all other parameters are as before, and in which the nodes within reach of the graph
store what a network infers in which they are created anew. -/
theorem Reachable.reshape_ignores_order (reachable : session.Reachable) {id : GraphId}
    {graph : Graph} (found : session.network.graph? id = some graph)
    {requests others : List (ShapeTarget × PartialShape)}
    (same : ∀ request, request ∈ requests ↔ request ∈ others) :
    (((Edit.reshape id requests).on session.network).1 = .ok () ↔
      ((Edit.reshape id others).on session.network).1 = .ok ()) ∧
    ∀ after, (Edit.reshape id requests).on session.network = (.ok (), after) →
      (Edit.reshape id others).on session.network = (.ok (), after) ∧
      session.network.Reshaped after id graph requests := by
  have coherent := reachable.coherent
  refine ⟨⟨fun accepted => ?_, fun accepted => ?_⟩, fun after accepted =>
    ⟨coherent.reshape_congr same accepted, coherent.reshaped reachable.regular reachable.linked
      reachable.sensible found accepted⟩⟩
  · exact congrArg Prod.fst (coherent.reshape_congr same (Edit.on_eq_of_ok accepted))
  · have back (request : ShapeTarget × PartialShape) : request ∈ others ↔ request ∈ requests :=
      (same request).symm
    exact congrArg Prod.fst (coherent.reshape_congr back (Edit.on_eq_of_ok accepted))

/-- Two parameters, of which one is named, and their concatenation, which is given out. -/
def labelled : Session :=
  empty.run [
    .create (.parameter { elementType := .f32, shape := .fixed [2, 3] }) [] none (.text "left"),
    .create (.parameter { elementType := .f32, shape := .fixed [2, 3] }) [] none (.text "right"),
    .create (.concat 0) [⟨1, 0⟩, ⟨2, 0⟩] none (.text "joined"),
    .create .result [⟨3, 0⟩] none (.text "outcome"),
    .createGraph [4] [1, 2] [] .absent (.text "graph"),
    .setNames ⟨1, 0⟩ ["upper"]]

theorem labelled_reachable : labelled.Reachable :=
  ⟨_, rfl⟩

/-- Larger shapes for both parameters; the named one is asked for by its name and by its output. -/
def enlargements : List (ShapeTarget × PartialShape) :=
  [(.tensor "upper", .fixed [2, 4]), (.port ⟨2, 0⟩, .fixed [3, 4]), (.port ⟨1, 0⟩, .fixed [2, 4])]

theorem parameters_labelled :
    (labelled.network.graph? 1).isSome ∧
    labelled.network.parameterOf? 1 (.port ⟨2, 0⟩) = some 2 ∧
    labelled.network.declaration? 2 = some { elementType := .f32, shape := .fixed [2, 3] } ∧
    ((Edit.reshape 1 enlargements).on labelled.network).1 = .ok () := by
  cbv

theorem reshape_labelled :
    ∃ after, (Edit.reshape 1 enlargements).on labelled.network = (.ok (), after) ∧
      (Edit.reshape 1 (enlargements.reverse ++ enlargements)).on labelled.network =
        (.ok (), after) ∧
      after.storedTypes 2 = [{ elementType := .f32, shape := .fixed [3, 4] }] := by
  obtain ⟨known, resolves, former, accepted⟩ := parameters_labelled
  obtain ⟨graph, found⟩ := Option.isSome_iff_exists.mp known
  have same (request : ShapeTarget × PartialShape) :
      request ∈ enlargements ↔ request ∈ enlargements.reverse ++ enlargements := by
    simp
  have outcome := Edit.on_eq_of_ok accepted
  obtain ⟨-, alike⟩ := labelled_reachable.reshape_ignores_order found same
  obtain ⟨others, reshaped⟩ := alike _ outcome
  obtain ⟨parameter, declared, resolved, known, -, stored⟩ :=
    reshaped.requested (.port ⟨2, 0⟩, .fixed [3, 4]) (by decide)
  obtain rfl : 2 = parameter := Option.some.inj (resolves.symm.trans resolved)
  obtain rfl := Option.some.inj (former.symm.trans known)
  exact ⟨_, outcome, others, stored⟩

end Session

end TensorGraph
