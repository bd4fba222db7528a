import TensorGraph.Proofs.Validation

/-!
# Rolling back a reshape

A reshape that is refused has resolved its requests, declared new shapes, and run
inference over a part of the schedule at most.  Declaring the former shapes again
gives back every declaration, and the second pass, whose equations are solved by what
was stored before, gives back every type.
-/

namespace TensorGraph

namespace Network

/-- Nothing has changed but schedules and memberships. -/
structure Steady (before after : Network) : Prop where
  keeps : Keeps before after
  stored : ∀ node, after.storedTypes node = before.storedTypes node

namespace Steady

variable {before between after : Network}

theorem refl (network : Network) : Steady network network :=
  ⟨.refl network, fun _ => rfl⟩

theorem trans (first : Steady before between) (second : Steady between after) :
    Steady before after :=
  ⟨first.keeps.trans second.keeps, fun node => (second.stored node).trans (first.stored node)⟩

theorem of_schedule (network : Network) (id : GraphId) :
    Steady network ((Edit.schedule id).on network).2 :=
  ⟨.of_schedule network id, storedTypes_schedule network id⟩

theorem of_report (network : Network) (event : Event) : Steady network (network.report event) :=
  ⟨⟨.of_node?_eq fun _ => rfl, fun _ => rfl⟩, fun _ => rfl⟩

theorem bind {α β : Type} {edit : Edit α} {next : α → Edit β} {network : Network}
    (first : Steady network (edit.on network).2)
    (second : ∀ value after, edit.on network = (.ok value, after) →
      Steady after ((next value).on after).2) :
    Steady network ((edit >>= next).on network).2 := by
  rw [Edit.on_bind]
  rcases outcome : edit.on network with ⟨result, after⟩
  rw [outcome] at first
  cases result with
  | ok value => exact first.trans (second value after outcome)
  | error error => exact first

theorem upToDate (steady : Steady before after) {node : NodeId} (upToDate : before.UpToDate node) :
    after.UpToDate node := by
  have solves : before.Solves before.storedTypes [node] :=
    solves_of_upToDate (by simpa using upToDate)
  have sameTypes : after.storedTypes = before.storedTypes := funext steady.stored
  have still := solves.of_agree steady.keeps.wiring
  rw [← sameTypes] at still
  exact upToDate_of_solves still node (List.mem_cons_self ..)

end Steady

theorem Keeps.reaches_iff {before after : Network} (keeps : Keeps before after)
    {roots : List NodeId} {node : NodeId} :
    after.Reaches roots node ↔ before.Reaches roots node :=
  reaches_congr fun id _ => keeps.dependencies id

theorem Keeps.parameters {before after : Network} (keeps : Keeps before after) (id : GraphId) :
    (after.graph id).parameters = (before.graph id).parameters := by
  have same := congrArg (Option.map (·.2.1)) (keeps.graphs id)
  rw [Option.map_map, Option.map_map] at same
  rw [Network.graph, Network.graph]
  cases later : after.graph? id <;> cases former : before.graph? id <;>
    simp_all [Graph.frame]

section Requests

variable {network after : Network} {id : GraphId}

theorem steady_resolveParameter (network : Network) (id : GraphId) (target : ShapeTarget) :
    Steady network ((Edit.resolveParameter id target).on network).2 := by
  cases target with
  | tensor name =>
      refine .bind (.refl network) fun found between outcome => ?_
      split
      · exact .refl between
      · refine .bind (.of_schedule between id) fun nodes later _ => ?_
        refine .bind (.refl later) fun current last _ => ?_
        split <;> exact .refl last
      · exact .refl between
  | port port =>
      refine .bind (.refl network) fun found between outcome => ?_
      split <;> exact .refl between

/-- What a look-up by name finds is a port of one of the nodes that has the name. -/
theorem of_portNamed {nodes : List NodeId} {name : String} {port : OutputPort}
    (found : network.portNamed nodes name = .ok port) :
    port.node ∈ nodes ∧ network.hasName port name := by
  rw [portNamed] at found
  split at found
  · cases found
  next first others candidates =>
    dsimp only at found
    split at found
    · cases found
    · obtain rfl : first = port := Except.ok.inj found
      have member : first ∈ (nodes.map firstOutput).filter (network.hasName · name) := by
        rw [candidates]
        exact List.mem_cons_self ..
      obtain ⟨inNodes, carries⟩ := List.mem_filter.mp member
      obtain ⟨node, inside, rfl⟩ := List.mem_map.mp inNodes
      exact ⟨inside, carries⟩

/-- The parameter of a graph that a target is for, if it is for one. -/
def parameterOf? (network : Network) (id : GraphId) : ShapeTarget → Option NodeId
  | .tensor name =>
      (network.portNamed (network.graph id).parameters name).toOption.map (·.node)
  | .port port => if port.node ∈ (network.graph id).parameters then some port.node else none

/-- A target is resolved exactly if it is for a parameter, and then without effect. -/
theorem on_resolveParameter_iff {target : ShapeTarget} {parameter : NodeId} :
    (Edit.resolveParameter id target).on network = (.ok parameter, after) ↔
      network.parameterOf? id target = some parameter ∧ after = network := by
  cases target with
  | tensor name =>
      rw [parameterOf?, Edit.resolveParameter, Edit.on_bind, Edit.on_get]
      dsimp only
      cases network.portNamed (network.graph id).parameters name with
      | ok port =>
          constructor
          · intro resolved
            cases resolved
            exact ⟨rfl, rfl⟩
          · rintro ⟨found, rfl⟩
            cases found
            rfl
      | error cause =>
          refine iff_of_false (fun resolved => ?_) fun both => by cases both.1
          split at resolved
          next named => cases named
          · obtain ⟨nodes, scheduled, -, resolved⟩ := Edit.of_on_bind resolved
            obtain ⟨found, later, -, resolved⟩ := Edit.of_on_bind resolved
            split at resolved <;> cases resolved
          · cases resolved
  | port port =>
      rw [parameterOf?, Edit.resolveParameter, Edit.on_bind, Edit.on_get]
      dsimp only
      split
      · constructor
        · intro resolved
          cases resolved
          exact ⟨rfl, rfl⟩
        · rintro ⟨found, rfl⟩
          cases found
          rfl
      · exact iff_of_false (fun resolved => by cases resolved) fun both => by cases both.1

theorem mem_of_parameterOf? {target : ShapeTarget} {parameter : NodeId}
    (found : network.parameterOf? id target = some parameter) :
    parameter ∈ (network.graph id).parameters := by
  cases target with
  | tensor name =>
      rw [parameterOf?] at found
      cases named : network.portNamed (network.graph id).parameters name with
      | ok port =>
          rw [named] at found
          obtain rfl := Option.some.inj found
          exact (of_portNamed named).1
      | error cause =>
          rw [named] at found
          cases found
  | port port =>
      rw [parameterOf?] at found
      split at found
      next inside =>
        obtain rfl := Option.some.inj found
        exact inside
      · cases found

/-- A target is resolved to a declared parameter of the graph. -/
theorem mem_of_resolveParameter {target : ShapeTarget} {parameter : NodeId}
    (resolved : (Edit.resolveParameter id target).on network = (.ok parameter, after)) :
    parameter ∈ (network.graph id).parameters :=
  mem_of_parameterOf? (on_resolveParameter_iff.mp resolved).1

theorem steady_addRequest (network : Network) (id : GraphId)
    (requests : List (NodeId × PartialShape)) (request : ShapeTarget × PartialShape) :
    Steady network ((Edit.addRequest id requests request).on network).2 := by
  refine .bind (steady_resolveParameter network id request.1) fun parameter between _ => ?_
  split
  · exact .refl between
  · split
    · exact .refl between
    · exact .bind (.refl between) fun _ last _ => .refl last

theorem mem_of_addRequest {requests extended : List (NodeId × PartialShape)}
    {request : ShapeTarget × PartialShape}
    (added : (Edit.addRequest id requests request).on network = (.ok extended, after)) :
    ∀ entry ∈ extended, entry ∈ requests ∨ entry.1 ∈ (network.graph id).parameters := by
  obtain ⟨parameter, between, resolved, added⟩ := Edit.of_on_bind added
  split at added
  · cases added
    intro entry member
    rcases List.mem_append.mp member with old | new
    · exact Or.inl old
    · obtain rfl := List.mem_singleton.mp new
      exact Or.inr (mem_of_resolveParameter resolved)
  · split at added
    · cases added
      exact fun entry member => Or.inl member
    · obtain ⟨found, later, -, added⟩ := Edit.of_on_bind added
      cases added

theorem steady_addRequests (network : Network) (id : GraphId)
    (requests : List (ShapeTarget × PartialShape)) (earlier : List (NodeId × PartialShape)) :
    Steady network ((requests.foldlM (Edit.addRequest id) earlier).on network).2 := by
  induction requests generalizing network earlier with
  | nil => exact .refl network
  | cons request requests ih =>
      rw [List.foldlM_cons]
      exact .bind (steady_addRequest network id earlier request) fun extended between _ =>
        ih between extended

/-- All requests that are taken up are for declared parameters of the graph. -/
theorem mem_of_addRequests {requests : List (ShapeTarget × PartialShape)}
    {earlier shapes : List (NodeId × PartialShape)}
    (added : (requests.foldlM (Edit.addRequest id) earlier).on network = (.ok shapes, after)) :
    ∀ entry ∈ shapes, entry ∈ earlier ∨ entry.1 ∈ (network.graph id).parameters := by
  induction requests generalizing network earlier with
  | nil =>
      cases added
      exact fun entry member => Or.inl member
  | cons request requests ih =>
      rw [List.foldlM_cons] at added
      obtain ⟨extended, between, first, added⟩ := Edit.of_on_bind added
      have steady := steady_addRequest network id earlier request
      rw [first] at steady
      intro entry member
      rcases ih added entry member with taken | declared
      · exact mem_of_addRequest first entry taken
      · exact Or.inr (steady.keeps.parameters id ▸ declared)

end Requests

section Declarations

/-- An operator without the shape that it declares. -/
def withoutShape : Operator → Operator
  | .parameter declared => .parameter { declared with shape := default }
  | operator => operator

/-- A node without declared shapes, types of outputs and memberships. -/
def outline (node : Node) : Node :=
  { node.skeleton with operator := withoutShape node.operator }

/-- The type that an operator declares. -/
def declares? : Operator → Option TensorType
  | .parameter declared => some declared
  | _ => none

theorem declaration?_eq (network : Network) (id : NodeId) :
    network.declaration? id = (network.node? id).bind fun node => declares? node.operator := by
  rw [declaration?]
  cases network.node? id with
  | none => rfl
  | some node => cases operator : node.operator <;> simp [operator, declares?]

theorem operator_eq {operator other : Operator} (same : withoutShape operator = withoutShape other)
    (declared : declares? operator = declares? other) : operator = other := by
  cases operator <;> cases other <;> simp_all [withoutShape, declares?]

theorem skeleton_eq {node other : Node} (same : outline node = outline other)
    (declared : declares? node.operator = declares? other.operator) :
    node.skeleton = other.skeleton := by
  have operators := operator_eq (congrArg Node.operator same) declared
  simp only [outline, Node.skeleton, Node.mk.injEq] at same ⊢
  exact ⟨same.1, operators, same.2.2⟩

variable {before between after : Network}

theorem Keeps.outlines (keeps : Keeps before after) : Agree outline before after :=
  keeps.nodes.map fun node => { node with operator := withoutShape node.operator }

theorem Keeps.declaration? (keeps : Keeps before after) (id : NodeId) :
    after.declaration? id = before.declaration? id := by
  rw [declaration?_eq, declaration?_eq]
  exact (keeps.nodes.map fun node => declares? node.operator).bind_eq id

/-- Networks with equal outlines and declarations differ in types, schedules and
memberships only. -/
theorem keeps_of_outlines (outlines : Agree outline before after)
    (declarations : ∀ id, after.declaration? id = before.declaration? id)
    (graphs : ∀ id, (after.graph? id).map Graph.frame = (before.graph? id).map Graph.frame) :
    Keeps before after := by
  refine ⟨fun id => ?_, graphs⟩
  have same := outlines id
  have declared := declarations id
  rw [declaration?_eq, declaration?_eq] at declared
  cases later : after.node? id <;> cases former : before.node? id <;>
    simp only [later, former, Option.map_none, Option.map_some, Option.some.injEq,
      Option.bind_some, reduceCtorEq] at same declared ⊢
  exact skeleton_eq same declared

/-- The shapes of the given parameters have been declared anew. -/
structure Redeclared (parameters : List NodeId) (before after : Network) : Prop where
  outlines : Agree outline before after
  graphs : ∀ id, after.graph? id = before.graph? id
  others : ∀ id, id ∉ parameters → after.node? id = before.node? id

theorem Redeclared.cons {parameter : NodeId} {parameters : List NodeId}
    (first : Redeclared [parameter] before between)
    (second : Redeclared parameters between after) :
    Redeclared (parameter :: parameters) before after := by
  refine ⟨first.outlines.trans second.outlines,
    fun id => (second.graphs id).trans (first.graphs id), fun id outside => ?_⟩
  rw [List.mem_cons, not_or] at outside
  rw [second.others id outside.2, first.others id (by simpa using outside.1)]

theorem isParameter_of_outlines (outlines : Agree outline before after) (id : NodeId) :
    after.isParameter id = before.isParameter id := by
  have operatorRole (operator : Operator) : (withoutShape operator).role = operator.role := by
    cases operator <;> rfl
  have same := outlines.map (fun node => node.operator.role) id
  simp only [outline, operatorRole] at same
  rw [isParameter, role?, same, isParameter, role?]

theorem outline_declare (node : Node) {declared : TensorType}
    (parameter : node.operator = .parameter declared) (shape : PartialShape) :
    outline (node.declare declared ({ · with shape })) = outline node := by
  have outputs : (node.outputs.modify 0 fun tensor =>
        { tensor with type := { tensor.type with shape } }).map
          (fun tensor => { tensor with type := default }) =
      node.outputs.map fun tensor => { tensor with type := default } := by
    apply List.ext_getElem?
    intro place
    simp only [List.getElem?_map, List.getElem?_modify]
    split <;> simp [Function.comp_def]
  simp only [outline, Node.skeleton, Node.declare, parameter, withoutShape, outputs]

theorem on_declareShape {network : Network} {parameter : NodeId}
    (isParameter : network.isParameter parameter) (shape : PartialShape) :
    ∃ after, (Edit.declareShape parameter shape).on network = (.ok (), after) ∧
      Redeclared [parameter] network after ∧
      (after.declaration? parameter).map (·.shape) = some shape := by
  obtain ⟨node, declared, alive, operator⟩ := isParameter_iff.mp isParameter
  refine ⟨_, on_redeclare alive operator _ _, ⟨?_, fun _ => rfl, fun id outside => ?_⟩, ?_⟩
  · exact agree_modifyNode_of_alive alive (outline_declare node operator shape)
  · rw [node?_modifyNode, if_neg fun same => outside (by simp [same])]
  · rw [declaration?_eq, node?_modifyNode, if_pos rfl, alive]
    rfl

theorem on_declareShapes {network : Network} {shapes : List (NodeId × PartialShape)}
    (parameters : ∀ request ∈ shapes, network.isParameter request.1) :
    ∃ after, (Edit.declareShapes shapes).on network = (.ok (), after) ∧
      Redeclared (shapes.map Prod.fst) network after ∧
      ∀ shapeOf : NodeId → PartialShape, (∀ request ∈ shapes, request.2 = shapeOf request.1) →
        ∀ id ∈ shapes.map Prod.fst, (after.declaration? id).map (·.shape) = some (shapeOf id) := by
  induction shapes generalizing network with
  | nil =>
      refine ⟨network, rfl, ⟨.refl _ _, fun _ => rfl, fun _ _ => rfl⟩, ?_⟩
      simp
  | cons request shapes ih =>
      obtain ⟨isParameter, restParameters⟩ := List.forall_mem_cons.mp parameters
      obtain ⟨between, declared, first, shape⟩ := on_declareShape isParameter request.2
      obtain ⟨after, declaredRest, rest, shapesRest⟩ := ih fun other member => by
        rw [isParameter_of_outlines first.outlines]
        exact restParameters other member
      refine ⟨after, ?_, first.cons rest, fun shapeOf agree id member => ?_⟩
      · change (Edit.declareShape request.1 request.2 >>= fun _ =>
          Edit.declareShapes shapes).on network = _
        rw [Edit.on_bind, declared]
        exact declaredRest
      · obtain ⟨here, there⟩ := List.forall_mem_cons.mp agree
        by_cases later : id ∈ shapes.map Prod.fst
        · exact shapesRest shapeOf there id later
        · obtain rfl : id = request.1 := by
            rw [List.map_cons, List.mem_cons] at member
            exact member.resolve_right later
          rw [declaration?_eq, rest.others _ later, ← declaration?_eq, shape, here]

end Declarations

section Effect

variable {network : Network} {id : GraphId} {graph : Graph}

/-- What a validation does to a network, whatever its outcome: nothing but schedules
where there is no order, and a pass over the nodes of the order otherwise. -/
theorem Coherent.validate_effect (coherent : network.Coherent) (regular : network.Regular)
    (found : network.graph? id = some graph) :
    (∃ error, network.order graph.currentRoots = .error error ∧
      Steady network ((Edit.validate id).on network).2) ∨
    ∃ nodes scheduled, network.order graph.currentRoots = .ok nodes ∧
      Steady network scheduled ∧ scheduled.Regular ∧ scheduled.Sequenced [] nodes ∧
      ((Edit.validate id).on network).2 = ((nodes.forM Edit.inferNode).on scheduled).2 := by
  rcases coherent.validate_cases regular found with
    ⟨error, after, refused, outcome, keeps, stored⟩ |
    ⟨nodes, scheduled, current, ordered, keeps, stillCoherent, stillRegular, stored, known,
      isFresh, rfl, -, outcome⟩
  · rw [outcome]
    exact Or.inl ⟨error, refused, keeps, stored⟩
  · refine Or.inr ⟨current.schedule, scheduled, ordered, ⟨keeps, stored⟩, stillRegular,
      stillCoherent.sequenced known isFresh, ?_⟩
    rw [outcome, on_validate_of_fresh stillRegular known isFresh]
    rcases (current.schedule.forM Edit.inferNode).on scheduled with ⟨error | _, after⟩ <;> rfl

theorem Coherent.keeps_validate (coherent : network.Coherent) (regular : network.Regular)
    (found : network.graph? id = some graph) :
    Keeps network ((Edit.validate id).on network).2 := by
  rcases coherent.validate_effect regular found with
    ⟨error, -, steady⟩ | ⟨nodes, scheduled, -, steady, stillRegular, -, same⟩
  · exact steady.keeps
  · rw [same]
    exact steady.keeps.trans (retyped_forM_inferNode stillRegular nodes).keeps

/-- A validation leaves the types of nodes that are not scheduled. -/
theorem Coherent.storedTypes_validate (coherent : network.Coherent) (regular : network.Regular)
    (found : network.graph? id = some graph) {node : NodeId}
    (absent : ∀ nodes, network.order graph.currentRoots = .ok nodes → node ∉ nodes) :
    ((Edit.validate id).on network).2.storedTypes node = network.storedTypes node := by
  rcases coherent.validate_effect regular found with
    ⟨error, -, steady⟩ | ⟨nodes, scheduled, ordered, steady, stillRegular, -, same⟩
  · exact steady.stored node
  · have passed := (retyped_forM_inferNode stillRegular nodes).stored node (absent nodes ordered)
    rw [same]
    exact passed.trans (steady.stored node)

end Effect

section Recovery

variable {before after network : Network} {id : GraphId} {graph : Graph} {node : NodeId}

theorem declares?_eq_of_shape {operator other : Operator}
    (same : withoutShape operator = withoutShape other)
    (shapes : (declares? operator).map (·.shape) = (declares? other).map (·.shape)) :
    declares? operator = declares? other := by
  cases operator with
  | parameter declared =>
      cases other with
      | parameter former =>
          obtain ⟨elementType, shape⟩ := declared
          simp_all [withoutShape, declares?]
      | _ => cases same
  | _ => cases other <;> simp_all [withoutShape, declares?]

theorem declaration?_eq_of_shape (outlines : Agree outline before after) {node : NodeId}
    (shapes : (after.declaration? node).map (·.shape) =
      (before.declaration? node).map (·.shape)) :
    after.declaration? node = before.declaration? node := by
  rw [declaration?_eq, declaration?_eq] at shapes ⊢
  rcases map_eq_map_cases (outlines node) with
    ⟨later, formerly⟩ | ⟨found, former, later, formerly, outlined⟩
  · rw [later, formerly]
  · rw [later, formerly] at shapes ⊢
    exact declares?_eq_of_shape (congrArg Node.operator outlined) shapes

theorem order_ok_of_outlines (outlines : Agree outline before after) {roots nodes : List NodeId}
    (ordered : before.order roots = .ok nodes) : after.order roots = .ok nodes :=
  order_congr (fun _ => True) (fun node _ => outlines.alive_iff node)
    (fun node _ => (outlines.map Node.dependencies).dependencies_eq node) (by simp) (by simp)
    ordered

theorem Keeps.exists_graph (keeps : Keeps before after) (found : before.graph? id = some graph) :
    ∃ current, after.graph? id = some current ∧ current.currentRoots = graph.currentRoots := by
  have same := keeps.graphs id
  rw [found, Option.map_some] at same
  obtain ⟨current, known, frame⟩ := Option.map_eq_some_iff.mp same
  simp only [Graph.frame, Prod.mk.injEq] at frame
  exact ⟨current, known, by rw [Graph.currentRoots, Graph.currentRoots, frame.2.1, frame.2.2.1,
    frame.2.2.2]⟩

/-- The shapes that parameters declare at present. -/
def formerShapes (network : Network) (shapes : List (NodeId × PartialShape)) :
    List (NodeId × PartialShape) :=
  shapes.filterMap fun (parameter, _) =>
    (network.declaration? parameter).map fun declared => (parameter, declared.shape)

theorem exists_declaration (isParameter : network.isParameter node) :
    ∃ declared, network.declaration? node = some declared := by
  obtain ⟨found, declared, alive, operator⟩ := isParameter_iff.mp isParameter
  exact ⟨declared, by rw [declaration?_eq, alive, Option.bind_some, operator]; rfl⟩

theorem of_mem_formerShapes {shapes : List (NodeId × PartialShape)}
    {entry : NodeId × PartialShape} (member : entry ∈ network.formerShapes shapes) :
    entry.1 ∈ shapes.map Prod.fst ∧
      (network.declaration? entry.1).map (·.shape) = some entry.2 := by
  obtain ⟨request, asked, given⟩ := List.mem_filterMap.mp member
  obtain ⟨declared, known, rfl⟩ := Option.map_eq_some_iff.mp given
  exact ⟨List.mem_map.mpr ⟨request, asked, rfl⟩, by rw [known]; rfl⟩

theorem map_formerShapes_subset (network : Network) (shapes : List (NodeId × PartialShape)) :
    (network.formerShapes shapes).map Prod.fst ⊆ shapes.map Prod.fst := by
  intro node present
  obtain ⟨entry, member, rfl⟩ := List.mem_map.mp present
  exact (of_mem_formerShapes member).1

theorem mem_map_formerShapes {shapes : List (NodeId × PartialShape)}
    (inside : node ∈ shapes.map Prod.fst) (isParameter : network.isParameter node) :
    node ∈ (network.formerShapes shapes).map Prod.fst := by
  obtain ⟨declared, known⟩ := exists_declaration isParameter
  obtain ⟨request, asked, rfl⟩ := List.mem_map.mp inside
  refine List.mem_map.mpr ⟨(request.1, declared.shape), ?_, rfl⟩
  refine List.mem_filterMap.mpr ⟨request, asked, ?_⟩
  exact congrArg (Option.map fun declared => (request.1, declared.shape)) known

/-- Declaring the former shapes of parameters again undoes their redeclaration, while
everything else is kept. -/
theorem Redeclared.keeps_of_former {declared failed redeclared : Network}
    {shapes : List (NodeId × PartialShape)}
    (changed : Redeclared (shapes.map Prod.fst) network declared) (kept : Keeps declared failed)
    (restored : Redeclared ((network.formerShapes shapes).map Prod.fst) failed redeclared)
    (parameters : ∀ id ∈ shapes.map Prod.fst, network.isParameter id)
    (former : ∀ id ∈ (network.formerShapes shapes).map Prod.fst,
      (redeclared.declaration? id).map (·.shape) =
        (network.declaration? id).map (·.shape)) :
    Keeps network redeclared := by
  have outlines : Agree outline network redeclared :=
    changed.outlines.trans (kept.outlines.trans restored.outlines)
  apply keeps_of_outlines outlines
  · intro id
    apply declaration?_eq_of_shape outlines
    by_cases inside : id ∈ shapes.map Prod.fst
    · exact former id (mem_map_formerShapes inside (parameters id inside))
    · have outside := mt (fun present => network.map_formerShapes_subset shapes present) inside
      rw [declaration?_eq redeclared, restored.others id outside, ← declaration?_eq,
        kept.declaration?, declaration?_eq declared, changed.others id inside, ← declaration?_eq]
  · intro other
    rw [restored.graphs, kept.graphs, changed.graphs]

theorem outputs_eq_of_types {outputs others : List Tensor}
    (rest : outputs.map (fun tensor => { tensor with type := default }) =
      others.map fun tensor => { tensor with type := default })
    (types : outputs.map (·.type) = others.map (·.type)) : outputs = others := by
  induction outputs generalizing others with
  | nil => exact (List.map_eq_nil_iff.mp rest.symm).symm
  | cons tensor outputs ih =>
      cases others with
      | nil => cases rest
      | cons other others =>
          obtain ⟨type, names, consumers⟩ := tensor
          obtain ⟨sameRest, rest⟩ := List.cons.inj rest
          obtain ⟨sameType, types⟩ := List.cons.inj types
          rw [ih rest types]
          simp_all

/-- Outputs are equal where their types are, if no more than types has changed. -/
theorem Keeps.outputs_eq (keeps : Keeps before after) {node : NodeId}
    (stored : after.storedTypes node = before.storedTypes node) :
    (after.node? node).map (·.outputs) = (before.node? node).map (·.outputs) := by
  rw [storedTypes, storedTypes] at stored
  rcases map_eq_map_cases (keeps.nodes node) with
    ⟨later, formerly⟩ | ⟨found, former, later, formerly, skeletons⟩
  · rw [later, formerly]
  · rw [later, formerly, Option.elim_some, Option.elim_some] at stored
    rw [later, formerly]
    exact congrArg some (outputs_eq_of_types (congrArg Node.outputs skeletons) stored)

/-- What is stored for a parameter is what it declares. -/
theorem Regular.storedTypes_of_declaration? (regular : network.Regular) {declared : TensorType}
    (known : network.declaration? node = some declared) :
    network.storedTypes node = [declared] := by
  rw [declaration?_eq] at known
  obtain ⟨found, alive, declares⟩ := Option.bind_eq_some_iff.mp known
  have parameter : found.operator = .parameter declared := by
    cases operator : found.operator <;> simp_all [declares?]
  rw [storedTypes, alive]
  exact (regular node found alive).declared declared parameter

theorem Keeps.storedTypes_parameter (keeps : Keeps before after) (regularBefore : before.Regular)
    (regularAfter : after.Regular) {node : NodeId} (isParameter : before.isParameter node) :
    after.storedTypes node = before.storedTypes node := by
  obtain ⟨declared, known⟩ := exists_declaration isParameter
  have still := (keeps.declaration? node).trans known
  rw [regularBefore.storedTypes_of_declaration? known,
    regularAfter.storedTypes_of_declaration? still]

theorem on_restore {former : List (NodeId × PartialShape)} {redeclared : Network}
    (declares : (Edit.declareShapes former).on network = (.ok (), redeclared)) :
    ∃ after, (Edit.restore id former).on network = (.ok (), after) ∧
      Steady ((Edit.validate id).on redeclared).2 after := by
  rw [Edit.restore, Edit.on_bind, declares]
  dsimp only
  rw [Edit.on_orElse]
  rcases (Edit.validate id).on redeclared with ⟨result, after⟩
  cases result with
  | ok _ => exact ⟨after, rfl, .refl after⟩
  | error error => exact ⟨_, rfl, .of_report after _⟩

/-- After a failed validation of newly declared shapes the former ones can be declared
again.  Then declarations and wiring are as at the start, and so are the types of all
nodes that are neither parameters nor scheduled. -/
theorem Coherent.redeclare (coherent : network.Coherent) (regular : network.Regular)
    (found : network.graph? id = some graph) {shapes : List (NodeId × PartialShape)}
    (parameters : ∀ entry ∈ shapes, network.isParameter entry.1) :
    ∃ declared, (Edit.declareShapes shapes).on network = (.ok (), declared) ∧
      ∀ event, ∃ redeclared,
        (Edit.declareShapes (network.formerShapes shapes)).on
          (((Edit.validate id).on declared).2.report event) = (.ok (), redeclared) ∧
        Moves network redeclared ∧ Keeps network redeclared ∧
        ∀ node, network.isParameter node = false →
          (∀ nodes, network.order graph.currentRoots = .ok nodes → node ∉ nodes) →
          redeclared.storedTypes node = network.storedTypes node := by
  obtain ⟨declared, declares, changed, -⟩ := on_declareShapes parameters
  refine ⟨declared, declares, fun event => ?_⟩
  have moves := Edit.follows_declareShapes shapes network
  rw [declares] at moves
  have declaredFound : declared.graph? id = some graph := (changed.graphs id).trans found
  have declaredCoherent := coherent.of_moves moves
  have declaredRegular := regular.of_moves moves
  let failed := ((Edit.validate id).on declared).2.report event
  have failedKeeps : Keeps declared failed :=
    (declaredCoherent.keeps_validate declaredRegular declaredFound).trans
      (Steady.of_report _ event).keeps
  have failedMoves : Moves network failed :=
    .tail (moves.trans (Edit.follows_validate id declared)) .logged
  have declaredParameter (node : NodeId) (inside : node ∈ shapes.map Prod.fst) :
      network.isParameter node := by
    obtain ⟨entry, member, rfl⟩ := List.mem_map.mp inside
    exact parameters entry member
  have formerParameters (entry : NodeId × PartialShape)
      (member : entry ∈ network.formerShapes shapes) : failed.isParameter entry.1 := by
    rw [failedKeeps.isParameter, isParameter_of_outlines changed.outlines]
    exact declaredParameter entry.1 (of_mem_formerShapes member).1
  obtain ⟨redeclared, redeclares, restored, shapesRestored⟩ := on_declareShapes formerParameters
  have lastMoves := Edit.follows_declareShapes (network.formerShapes shapes) failed
  rw [redeclares] at lastMoves
  have former (node : NodeId) (inside : node ∈ (network.formerShapes shapes).map Prod.fst) :
      (redeclared.declaration? node).map (·.shape) =
        (network.declaration? node).map (·.shape) := by
    have isParameter := declaredParameter node (network.map_formerShapes_subset shapes inside)
    obtain ⟨declaredType, known⟩ := exists_declaration isParameter
    rw [shapesRestored (fun node => ((network.declaration? node).map (·.shape)).getD default)
      (fun entry member => by rw [(of_mem_formerShapes member).2]; rfl) node inside, known]
    rfl
  have keeps : Keeps network redeclared :=
    changed.keeps_of_former failedKeeps restored declaredParameter former
  refine ⟨redeclared, redeclares, failedMoves.trans lastMoves, keeps, fun node other absent => ?_⟩
  have unasked : node ∉ shapes.map Prod.fst := by
    intro inside
    rw [declaredParameter node inside] at other
    cases other
  have unrestored := mt (fun present => network.map_formerShapes_subset shapes present) unasked
  have failedStored : failed.storedTypes node = declared.storedTypes node :=
    declaredCoherent.storedTypes_validate declaredRegular declaredFound fun nodes ordered =>
      absent nodes (order_ok_of_outlines changed.outlines.symm ordered)
  rw [storedTypes, restored.others node unrestored, ← storedTypes, failedStored,
    storedTypes, changed.others node unasked, storedTypes]

/-- A validation from the declarations and the wiring of a network gives back the types
of the network, if all nodes within reach were up to date in it. -/
theorem Coherent.revalidate (coherent : before.Coherent) (regular : before.Regular)
    (found : before.graph? id = some graph) (moves : Moves before after)
    (keeps : Keeps before after)
    (kept : ∀ node, before.isParameter node = false →
      (∀ nodes, before.order graph.currentRoots = .ok nodes → node ∉ nodes) →
      after.storedTypes node = before.storedTypes node)
    (upToDate : ∀ node, before.Reaches graph.currentRoots node → before.UpToDate node)
    (node : NodeId) :
    ((Edit.validate id).on after).2.storedTypes node = before.storedTypes node := by
  have afterCoherent := coherent.of_moves moves
  have afterRegular := regular.of_moves moves
  obtain ⟨current, known, sameRoots⟩ := keeps.exists_graph found
  by_cases isParameter : before.isParameter node
  · have validated := keeps.trans (afterCoherent.keeps_validate afterRegular known)
    refine validated.storedTypes_parameter regular ?_ isParameter
    exact afterRegular.of_moves (Edit.follows_validate id after)
  rw [Bool.not_eq_true] at isParameter
  rcases afterCoherent.validate_effect afterRegular known with
    ⟨cause, refused, steady⟩ |
    ⟨nodes, scheduled, ordered, steady, scheduledRegular, sequenced, same⟩
  · rw [steady.stored]
    apply kept node isParameter
    intro nodes ordered
    have again := order_ok_of_outlines keeps.outlines ordered
    rw [← sameRoots, refused] at again
    cases again
  · rw [sameRoots] at ordered
    have orderedBefore := order_ok_of_outlines keeps.outlines.symm ordered
    rw [same]
    by_cases inside : node ∈ nodes
    · have solves : before.Solves before.storedTypes nodes :=
        solves_of_upToDate fun other member =>
          upToDate other ((coherent.mem_iff_reaches found orderedBefore other).mp member)
      obtain ⟨last, ended, stored⟩ := forM_inferNode_of_solves scheduledRegular sequenced
        (solves.of_agree (keeps.trans steady.keeps).wiring) (by simp)
      rw [ended]
      exact stored node inside
    · rw [(retyped_forM_inferNode scheduledRegular nodes).stored node inside, steady.stored]
      apply kept node isParameter
      intro others orderedOthers
      obtain rfl : nodes = others := Except.ok.inj (orderedBefore.symm.trans orderedOthers)
      exact inside

/-- A reshape after its requests were resolved and the new shapes declared. -/
theorem on_reshape {requests : List (ShapeTarget × PartialShape)}
    {shapes : List (NodeId × PartialShape)} {start declared : Network}
    (resolved : (requests.foldlM (Edit.addRequest id) []).on network = (.ok shapes, start))
    (declares : (Edit.declareShapes shapes).on start = (.ok (), declared)) :
    (Edit.reshape id requests).on network =
      match (Edit.validate id).on declared with
      | (.ok _, after) => (.ok (), after.report (.reshaped (after.graph id).name shapes.length))
      | (.error cause, failed) =>
          match (Edit.restore id (start.formerShapes shapes)).on
            (failed.report (.reshapeFailed (failed.graph id).name cause)) with
          | (.ok _, after) => (.error cause.asReshapeRefusal, after)
          | (.error other, after) => (.error other, after) := by
  rw [Edit.reshape, Edit.on_bind, resolved]
  dsimp only
  rw [Edit.on_bind, Edit.on_get]
  dsimp only
  rw [Edit.on_bind, declares]
  dsimp only
  rw [Edit.on_bind, Edit.on_orElse]
  rcases (Edit.validate id).on declared with ⟨result, failed⟩
  cases result with
  | ok _ => rfl
  | error cause =>
      dsimp only
      rw [Edit.on_bind, Edit.on_get]
      dsimp only
      rw [Edit.on_bind, Edit.report, Edit.on_change]
      dsimp only
      rw [Edit.on_bind]
      rcases restored : (Edit.restore id (start.formerShapes shapes)).on
        (failed.report (.reshapeFailed (failed.graph id).name cause)) with ⟨result, after⟩
      rw [formerShapes] at restored
      rw [restored]
      cases result <;> rfl

/-- A refused reshape keeps everything but types, schedules and memberships, and the
types as well if all nodes within reach were up to date. -/
theorem Coherent.reshape_refused (coherent : network.Coherent) (regular : network.Regular)
    (found : network.graph? id = some graph) {requests : List (ShapeTarget × PartialShape)}
    {error : GraphError}
    (refused : (Edit.reshape id requests).on network = (.error error, after)) :
    Keeps network after ∧
    ((∀ node, network.Reaches graph.currentRoots node → network.UpToDate node) →
      ∀ node, after.storedTypes node = network.storedTypes node) := by
  have steady := steady_addRequests network id requests []
  have moves := Edit.within_foldlM []
    (fun earlier request (_ : request ∈ requests) =>
      Edit.within_addRequest (Edit.follows_schedule id) earlier request)
    network
  rcases resolved : (requests.foldlM (Edit.addRequest id) []).on network with ⟨result, start⟩
  rw [resolved] at steady moves
  cases result with
  | error cause =>
      rw [Edit.reshape, Edit.on_bind, resolved] at refused
      obtain rfl : start = after := (Prod.mk.inj refused).2
      exact ⟨steady.keeps, fun _ => steady.stored⟩
  | ok shapes =>
      have parameters (entry : NodeId × PartialShape) (member : entry ∈ shapes) :
          start.isParameter entry.1 := by
        have inside : entry.1 ∈ (network.graph id).boundary .parameters :=
          (mem_of_addRequests resolved entry member).resolve_left (by simp)
        rw [steady.keeps.isParameter, isParameter]
        exact decide_eq_true (coherent.role?_of_mem_boundary inside)
      obtain ⟨current, known, sameRoots⟩ := steady.keeps.exists_graph found
      have startCoherent := coherent.of_moves moves
      have startRegular := regular.of_moves moves
      obtain ⟨declared, declares, redeclare⟩ :=
        startCoherent.redeclare startRegular known parameters
      rw [on_reshape resolved declares] at refused
      rcases validated : (Edit.validate id).on declared with ⟨result, failed⟩
      rw [validated] at refused redeclare
      cases result with
      | ok _ => cases (Prod.mk.inj refused).1
      | error cause =>
          obtain ⟨redeclared, redeclares, redeclaredMoves, keeps, kept⟩ :=
            redeclare (.reshapeFailed (failed.graph id).name cause)
          obtain ⟨restored, restores, last⟩ := on_restore redeclares
          dsimp only at refused
          rw [restores] at refused
          obtain rfl : restored = after := (Prod.mk.inj refused).2
          have redeclaredCoherent := startCoherent.of_moves redeclaredMoves
          obtain ⟨latest, still, -⟩ := keeps.exists_graph known
          have validates := redeclaredCoherent.keeps_validate
            (startRegular.of_moves redeclaredMoves) still
          refine ⟨steady.keeps.trans (keeps.trans (validates.trans last.keeps)),
            fun upToDate node => ?_⟩
          have upToDateStart (node : NodeId) (reached : start.Reaches current.currentRoots node) :
              start.UpToDate node := by
            rw [sameRoots, steady.keeps.reaches_iff] at reached
            exact steady.upToDate (upToDate node reached)
          exact (last.stored node).trans ((startCoherent.revalidate startRegular known
            redeclaredMoves keeps kept upToDateStart node).trans (steady.stored node))

end Recovery

end Network

namespace Session

variable {session : Session}

/-- Two parameters and their concatenation, which is given out. -/
def joined : Session :=
  empty.run [
    .create (.parameter { elementType := .f32, shape := .fixed [2, 3] }) [] none (.text "left"),
    .create (.parameter { elementType := .f32, shape := .fixed [2, 3] }) [] none (.text "right"),
    .create (.concat 0) [⟨1, 0⟩, ⟨2, 0⟩] none (.text "joined"),
    .create .result [⟨3, 0⟩] none (.text "outcome"),
    .createGraph [4] [1, 2] [] .absent (.text "graph")]

theorem joined_reachable : joined.Reachable :=
  ⟨_, rfl⟩

theorem graph?_joined :
    joined.network.graph? 1 = some {
      name := "default_graph"
      parameters := [1, 2], results := [4], sinks := []
      schedule := [1, 2, 3, 4], revision := 1, isFresh := true
      roster := [1, 2, 3, 4], roots := [4, 1, 2] } ∧
    joined.network.order [4, 1, 2] = .ok [1, 2, 3, 4] ∧
    [1, 2, 3, 4].all (joined.network.UpToDate ·) = true ∧
    ((Edit.reshape 1 [(.port ⟨1, 0⟩, .fixed [2, 4])]).on joined.network).1.isOk = false := by
  cbv

/-- A refused reshape changes neither wiring nor names nor boundaries, and no parameter
in any way that its declaration or its output shows.  If every node within reach stored
what its operator infers from what its sources store, then no output of any node is
changed. -/
theorem Reachable.reshape_rolls_back (reachable : session.Reachable) {id : GraphId}
    {graph : Graph} (found : session.network.graph? id = some graph)
    {requests : List (ShapeTarget × PartialShape)} {error : GraphError} {after : Network}
    (refused : (Edit.reshape id requests).on session.network = (.error error, after)) :
    session.network.Keeps after ∧
    (∀ node, session.network.isParameter node →
      after.declaration? node = session.network.declaration? node ∧
      (after.node? node).map (·.outputs) = (session.network.node? node).map (·.outputs)) ∧
    ((∀ node, session.network.Reaches graph.currentRoots node → session.network.UpToDate node) →
      ∀ node, (after.node? node).map (·.outputs) =
        (session.network.node? node).map (·.outputs)) := by
  obtain ⟨keeps, stored⟩ := reachable.coherent.reshape_refused reachable.regular found refused
  refine ⟨keeps, fun node isParameter => ⟨keeps.declaration? node, keeps.outputs_eq ?_⟩,
    fun upToDate node => keeps.outputs_eq (stored upToDate node)⟩
  have moves := Edit.follows_reshape id requests session.network
  rw [refused] at moves
  exact keeps.storedTypes_parameter reachable.regular (reachable.regular.of_moves moves) isParameter

theorem outputs_joined :
    ∃ error after,
      (Edit.reshape 1 [(.port ⟨1, 0⟩, .fixed [2, 4])]).on joined.network = (.error error, after) ∧
      ∀ node, (after.node? node).map (·.outputs) =
        (joined.network.node? node).map (·.outputs) := by
  obtain ⟨found, ordered, settled, fails⟩ := graph?_joined
  rcases outcome : (Edit.reshape 1 [(.port ⟨1, 0⟩, .fixed [2, 4])]).on joined.network with
    ⟨result, after⟩
  rw [outcome] at fails
  cases result with
  | ok _ => cases fails
  | error error =>
      obtain ⟨-, -, outputs⟩ := joined_reachable.reshape_rolls_back found outcome
      refine ⟨error, after, rfl, outputs fun node reached => ?_⟩
      have scheduled :=
        (joined_reachable.coherent.mem_iff_reaches found ordered node).mpr reached
      exact of_decide_eq_true (List.all_eq_true.mp settled node scheduled)

end Session
end TensorGraph
