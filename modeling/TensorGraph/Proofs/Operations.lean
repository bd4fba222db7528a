import TensorGraph.Proofs.Scheduling

/-!
# Operations made of others

Validating, reshaping, describing and bounding graphs is done by operations on single
nodes and by schedules.  What all of these leave related, the composed operations leave
related too, whatever their outcome; creating a graph and giving out a tensor are also
described exactly.
-/

namespace TensorGraph.Edit

open Network

section Composition

variable {related : Network → Network → Prop} [IsPreorder Network related]

/-- The relation holds between the networks before and after every operation that concerns
the types and the names of single nodes, adds a node or only reports. -/
structure NodeKeeping (related : Network → Network → Prop) : Prop where
  created : ∀ operator sources name, (create operator sources name).Within related
  inferred : ∀ id, (inferNode id).Within related
  redeclared : ∀ id update refusal, (redeclare id update refusal).Within related
  renamed : ∀ id name, (rename id name).Within related
  namesSet : ∀ port names, (setNames port names).Within related
  namesAdded : ∀ port names, (addNames port names).Within related
  reported : ∀ event, (report event).Within related

/-- The relation holds between the networks before and after every operation that edits
neither edges nor boundaries. -/
structure EdgeKeeping (related : Network → Network → Prop) : Prop extends
    NodeKeeping related where
  scheduled : ∀ id, (schedule id).Within related
  graphCreated : ∀ results sinks parameters,
    (createGraph results sinks parameters).Within related
  graphRenamed : ∀ id name, (renameGraph id name).Within related
  graphDropped : ∀ network id, related network (network.dropGraph id)

/-- The relation also holds between the networks before and after a graph is dropped except for
what it shares with its nodes. -/
structure GraphKeeping (related : Network → Network → Prop) : Prop extends
    EdgeKeeping related where
  graphRetired : ∀ network id graph, network.graph? id = some graph →
    related network (network.retireGraph id)

/-- The relation holds between a network and the one after an elementary edit of edges,
whatever the edit is given. -/
structure EdgeEditing (related : Network → Network → Prop) : Prop where
  rewired : ∀ network input former source, related network (network.rewire input former source)
  rewiredAll : ∀ network id former sources,
    related network (network.rewireAll id former sources)
  controlAdded : ∀ network dependent dependency,
    related network (network.addControl dependent dependency)
  controlRemoved : ∀ network dependent dependency,
    related network (network.removeControl dependent dependency)
  controlCleared : ∀ network dependent former,
    related network (network.clearControl dependent former)
  touched : ∀ network nodes, related network (network.touch nodes)

omit [IsPreorder Network related] in
/-- A relation that sees no edges need only be shown to hold where nodes are touched. -/
theorem EdgeEditing.of_touches
    (keeps : ∀ {nodes before after}, Touches nodes before after → related before after) :
    EdgeEditing related where
  rewired network input former source := keeps (network.touches_rewire input former source)
  rewiredAll network id former sources := keeps (network.touches_rewireAll id former sources)
  controlAdded network dependent dependency :=
    keeps (network.touches_addControl dependent dependency)
  controlRemoved network dependent dependency :=
    keeps (network.touches_removeControl dependent dependency)
  controlCleared network dependent former := keeps (network.touches_clearControl dependent former)
  touched network nodes := keeps (network.touches_touch nodes)

variable {id : GraphId}

theorem within_checkDeclared (scheduled : (schedule id).Within related) :
    (checkDeclared id).Within related :=
  scheduled.bind fun _ => within_ask _

theorem within_isDynamic (scheduled : (schedule id).Within related) :
    (isDynamic id).Within related :=
  scheduled.bind fun _ => within_get.bind fun _ => within_pure _

theorem within_describe (scheduled : (schedule id).Within related) :
    (describe id).Within related :=
  scheduled.bind fun _ => within_get.bind fun _ => within_pure _

theorem within_summarize (scheduled : (schedule id).Within related) :
    (summarize id).Within related :=
  (within_describe scheduled).bind fun _ => within_get.bind fun _ => within_pure _

theorem within_resolveParameter (scheduled : (schedule id).Within related)
    (target : ShapeTarget) : (resolveParameter id target).Within related := by
  cases target with
  | tensor name =>
      refine within_get.bind fun network => ?_
      split
      · exact within_pure _
      · refine scheduled.bind fun nodes => within_get.bind fun _ => ?_
        exact within_ite (fun _ => within_throw _) fun _ => within_throw _
      · exact within_throw _
  | port port =>
      exact within_get.bind fun network =>
        within_ite (fun _ => within_pure _) fun _ => within_throw _

theorem within_addRequest (scheduled : (schedule id).Within related)
    (requests : List (NodeId × PartialShape)) (request : ShapeTarget × PartialShape) :
    (addRequest id requests request).Within related := by
  refine (within_resolveParameter scheduled request.1).bind fun parameter => ?_
  split
  · exact within_pure _
  · exact within_ite (fun _ => within_pure _) fun _ => within_get.bind fun _ => within_throw _

section NodeKeeping

variable (keeping : NodeKeeping related)

include keeping

theorem NodeKeeping.resultFor (output : OutputPort) : (resultFor output).Within related :=
  within_get.bind fun _ =>
    within_ite (fun _ => within_pure _) fun _ => keeping.created _ _ _

theorem NodeKeeping.createGraphFromOutputs (outputs : List OutputPort)
    (parameters : List NodeId)
    (graphCreated : ∀ results, (createGraph results [] parameters).Within related) :
    (createGraphFromOutputs outputs parameters).Within related :=
  (within_mapM fun output _ => keeping.resultFor output).bind graphCreated

theorem NodeKeeping.validate (scheduled : (schedule id).Within related) :
    (validate id).Within related :=
  scheduled.bind fun _ => (within_forM fun node _ => keeping.inferred node).bind fun _ =>
    (within_checkDeclared scheduled).bind fun _ => within_ask _

theorem NodeKeeping.declareShapes (shapes : List (NodeId × PartialShape)) :
    (declareShapes shapes).Within related :=
  within_forM fun shape _ => keeping.redeclared shape.1 _ _

theorem NodeKeeping.restore (scheduled : (schedule id).Within related)
    (former : List (NodeId × PartialShape)) : (restore id former).Within related :=
  (keeping.declareShapes former).bind fun _ =>
    (keeping.validate scheduled).orElse fun _ => within_get.bind fun _ => keeping.reported _

theorem NodeKeeping.reshape (scheduled : (schedule id).Within related)
    (requests : List (ShapeTarget × PartialShape)) : (reshape id requests).Within related := by
  refine (within_foldlM [] fun earlier request _ =>
    within_addRequest scheduled earlier request).bind fun shapes => ?_
  refine within_get.bind fun network => (keeping.declareShapes shapes).bind fun _ => ?_
  refine Within.bind ?_ fun _ => within_get.bind fun _ => keeping.reported _
  refine (keeping.validate scheduled).orElse fun error => within_get.bind fun _ => ?_
  exact (keeping.reported _).bind fun _ =>
    (keeping.restore scheduled _).bind fun _ => within_throw _

theorem NodeKeeping.addOutput (scheduled : (schedule id).Within related)
    (extended : ∀ network result, related network
      ((network.modifyGraph id (·.modifyBoundary .results (· ++ [result]))).touchBoundary id))
    (target : OutputTarget) : (addOutput id target).Within related := by
  refine scheduled.bind fun nodes => (within_ask _).bind fun port => within_get.bind fun _ => ?_
  refine within_ite (fun _ => within_pure _) fun _ => (within_ask _).bind fun reader => ?_
  split
  · exact within_pure _
  · refine (keeping.created .result [port] none).bind fun result => ?_
    refine Within.bind (fun network => ?_) fun _ => within_pure _
    exact trans_of related (extended network result) (keeping.reported _ _)

end NodeKeeping

theorem within_addBoundary {part : Boundary} (changed : ∀ network change, related network
      ((network.modifyGraph id (·.modifyBoundary part change)).touchBoundary id))
    (nodes : List NodeId) : (addBoundary part id nodes).Within related :=
  (within_ask _).bind fun _ => within_change fun network => changed network (· ++ nodes)

theorem within_removeBoundary {part : Boundary} (changed : ∀ network change, related network
      ((network.modifyGraph id (·.modifyBoundary part change)).touchBoundary id))
    (node : NodeId) : (removeBoundary part id node).Within related :=
  within_get.bind fun _ => within_ite (fun _ => within_refusal _ _) fun _ =>
    within_change fun network => changed network (·.erase node)

theorem within_inferNode {node : NodeId} (typed : ∀ network types,
      related network (network.modifyNode node (·.withTypes types))) :
    (inferNode node).Within related := by
  refine (within_ask _).bind fun _ => within_get.bind fun _ => ?_
  split
  · exact within_throw _
  · exact within_change fun network => typed network _

theorem within_redeclare {node : NodeId} {update : TensorType → TensorType}
    (declared : ∀ network type, related network (network.modifyNode node (·.declare type update)))
    (refusal : NodeLabel → Misuse) : (redeclare node update refusal).Within related := by
  refine (within_ask _).bind fun _ => ?_
  split
  · exact within_change fun network => declared network _
  · exact within_throw _

theorem within_updateNames {update : NameSet → NameSet} (named : ∀ network owner,
      related network (network.modifyTensor owner fun tensor =>
        { tensor with names := update tensor.names }))
    (port : OutputPort) (given : NameSet) : (updateNames port given update).Within related :=
  (within_ask _).bind fun _ => within_get.bind fun _ => (within_ask _).bind fun _ =>
    within_change fun network => named network _

section EdgeEditing

variable (keeping : EdgeEditing related)

include keeping

theorem EdgeEditing.setSource (input : InputPort) (source : OutputPort) :
    (setSource input source).Within related :=
  (within_ask _).bind fun _ => (within_ask _).bind fun former =>
    within_change fun network => keeping.rewired network input former source

theorem EdgeEditing.setSources (id : NodeId) (sources : List OutputPort) :
    (setSources id sources).Within related :=
  (within_forM fun _ _ => within_ask _).bind fun _ => (within_ask _).bind fun node =>
    within_change fun network => keeping.rewiredAll network id node.sources sources

theorem EdgeEditing.replaceOutput (former replacement : OutputPort) :
    (replaceOutput former replacement).Within related := by
  refine (within_ask _).bind fun _ => within_ite (fun _ => ?_) fun _ => within_pure ()
  refine within_get.bind fun _ => ?_
  refine (within_forM fun input _ => keeping.setSource input replacement).bind fun _ => ?_
  exact within_change fun network => keeping.touched network _

theorem EdgeEditing.addControlDependency (dependent dependency : NodeId) :
    (addControlDependency dependent dependency).Within related := by
  rw [Edit.addControlDependency]
  refine within_ite (fun _ => within_get.bind fun _ => within_throw _) fun _ => ?_
  refine (within_ask _).bind fun _ => (within_ask _).bind fun _ => ?_
  refine within_ite (fun _ => ?_) fun _ => within_pure ()
  exact within_change fun network => keeping.controlAdded network dependent dependency

theorem EdgeEditing.removeControlDependency (dependent dependency : NodeId) :
    (removeControlDependency dependent dependency).Within related := by
  refine (within_ask _).bind fun _ => within_ite (fun _ => ?_) fun _ => within_pure false
  refine Within.bind ?_ fun _ => within_pure true
  exact within_change fun network => keeping.controlRemoved network dependent dependency

theorem EdgeEditing.clearControlDependencies (dependent : NodeId) :
    (clearControlDependencies dependent).Within related := by
  refine (within_ask _).bind fun _ => within_ite (fun _ => ?_) fun _ => within_pure ()
  exact within_change fun network => keeping.controlCleared network dependent _

theorem EdgeEditing.redirectDependent (target replacement dependent : NodeId) :
    (redirectDependent target replacement dependent).Within related :=
  within_ite
    (fun _ => (keeping.removeControlDependency dependent target).bind fun _ =>
      keeping.addControlDependency dependent replacement)
    fun _ => within_pure ()

theorem EdgeEditing.inheritDependency (replacement dependency : NodeId) :
    (inheritDependency replacement dependency).Within related :=
  within_ite (fun _ => keeping.addControlDependency replacement dependency)
    fun _ => within_pure ()

theorem EdgeEditing.replaceNode (target replacement : NodeId) :
    (replaceNode target replacement).Within related := by
  refine (within_ask _).bind fun _ => (within_ask _).bind fun _ => within_get.bind fun _ => ?_
  refine within_ite (fun _ => ?_) fun _ => within_pure ()
  refine within_ite (fun _ => within_refusal _ _) fun _ => ?_
  refine within_ite (fun _ => within_refusal _ _) fun _ => ?_
  refine (within_forM fun _ _ => keeping.replaceOutput _ _).bind fun _ => ?_
  refine within_get.bind fun _ => ?_
  refine (within_forM fun other _ => keeping.redirectDependent _ _ other).bind fun _ => ?_
  refine within_get.bind fun _ => ?_
  refine (within_forM fun other _ => keeping.inheritDependency _ other).bind fun _ => ?_
  exact within_change fun network => keeping.touched network _

end EdgeEditing

end Composition

section CreatedGraph

/-- A schedule that was answered is stored, and the graph is fresh. -/
theorem graph?_of_on_schedule {id : GraphId} {graph : Graph} {network after : Network}
    {nodes : List NodeId} (found : network.graph? id = some graph)
    (answered : (schedule id).on network = (.ok nodes, after)) :
    ∃ later, after.graph? id = some later ∧ later.isFresh ∧ later.schedule = nodes := by
  rw [on_schedule, graph_of_graph? found] at answered
  split at answered
  next isFresh =>
    obtain ⟨same, rfl⟩ := Prod.mk.inj answered
    exact ⟨graph, found, isFresh, Except.ok.inj same⟩
  next isStale =>
    split at answered
    next ordered computed =>
      obtain ⟨same, rfl⟩ := Prod.mk.inj answered
      obtain rfl := Except.ok.inj same
      rw [graph?_storeSchedule, if_pos rfl, graph?_recordRoots, if_pos rfl, found]
      exact ⟨_, rfl, rfl, rfl⟩
    · cases (Prod.mk.inj answered).1

/-- A schedule that was answered is answered again, and nothing changes any more. -/
theorem on_schedule_again {id : GraphId} {graph : Graph} {network after : Network}
    {nodes : List NodeId} (found : network.graph? id = some graph)
    (answered : (schedule id).on network = (.ok nodes, after)) :
    (schedule id).on after = (.ok nodes, after) := by
  obtain ⟨later, still, isFresh, same⟩ := graph?_of_on_schedule found answered
  rw [on_schedule, graph_of_graph? still, if_pos isFresh, same]

/-- A graph with an accepted boundary is dropped again if it has no schedule or leaves a
parameter undeclared. -/
theorem on_createGraph_of_accepted {results sinks parameters : List NodeId} {network : Network}
    (resultsAccepted : network.checkBoundary .result [] results = .ok ())
    (sinksAccepted : network.checkBoundary .sink [] sinks = .ok ())
    (parametersAccepted : network.checkBoundary .parameter [] parameters = .ok ()) :
    (createGraph results sinks parameters).on network =
      match (schedule network.graphs.nextId).on
        (network.addGraph { name := Graph.defaultName, parameters, results, sinks }) with
      | (.error error, after) => (.error error, after.dropGraph network.graphs.nextId)
      | (.ok nodes, after) =>
          match after.checkDeclared (after.graph network.graphs.nextId) nodes with
          | .error error => (.error error, after.dropGraph network.graphs.nextId)
          | .ok _ => (.ok network.graphs.nextId, after.report (.graphCreated Graph.defaultName
              results.length sinks.length parameters.length)) := by
  rw [createGraph, on_bind, on_ask, resultsAccepted]
  dsimp only
  rw [on_bind, on_ask, sinksAccepted]
  dsimp only
  rw [on_bind, on_ask, parametersAccepted]
  dsimp only
  rw [on_bind, on_get]
  dsimp only
  rw [on_bind, on_change]
  dsimp only
  have present : (network.addGraph
      { name := Graph.defaultName, parameters, results, sinks }).graph? network.graphs.nextId =
        some { name := Graph.defaultName, parameters, results, sinks } := by
    rw [graph?_addGraph, if_pos rfl]
  rw [on_bind, on_undoing, on_bind]
  rcases answered : (schedule network.graphs.nextId).on
      (network.addGraph { name := Graph.defaultName, parameters, results, sinks }) with
    ⟨error | nodes, after⟩
  · rfl
  · dsimp only
    rw [checkDeclared, on_bind, on_schedule_again present answered]
    dsimp only
    rw [on_ask]
    cases after.checkDeclared (after.graph network.graphs.nextId) nodes <;> rfl

/-- A creation of a graph is refused without effect, or the new graph is dropped after its
schedule was asked for, or the graph has a schedule. -/
theorem on_createGraph_cases (results sinks parameters : List NodeId) (network : Network) :
    (∃ error, (createGraph results sinks parameters).on network = (.error error, network)) ∨
    network.checkBoundary .result [] results = .ok () ∧
    network.checkBoundary .sink [] sinks = .ok () ∧
    network.checkBoundary .parameter [] parameters = .ok () ∧
    ∃ scheduled, scheduled = (schedule network.graphs.nextId).on
        (network.addGraph { name := Graph.defaultName, parameters, results, sinks }) ∧
      ((∃ error, (createGraph results sinks parameters).on network =
        (.error error, scheduled.2.dropGraph network.graphs.nextId)) ∨
      ∃ nodes, scheduled.1 = .ok nodes ∧
        (createGraph results sinks parameters).on network =
          (.ok network.graphs.nextId, scheduled.2.report (.graphCreated Graph.defaultName
            results.length sinks.length parameters.length))) := by
  cases resultsAccepted : network.checkBoundary .result [] results with
  | error error =>
      refine Or.inl ⟨error, ?_⟩
      rw [createGraph, on_bind, on_ask, resultsAccepted]
  | ok _ =>
  cases sinksAccepted : network.checkBoundary .sink [] sinks with
  | error error =>
      refine Or.inl ⟨error, ?_⟩
      rw [createGraph, on_bind, on_ask, resultsAccepted]
      dsimp only
      rw [on_bind, on_ask, sinksAccepted]
  | ok _ =>
  cases parametersAccepted : network.checkBoundary .parameter [] parameters with
  | error error =>
      refine Or.inl ⟨error, ?_⟩
      rw [createGraph, on_bind, on_ask, resultsAccepted]
      dsimp only
      rw [on_bind, on_ask, sinksAccepted]
      dsimp only
      rw [on_bind, on_ask, parametersAccepted]
  | ok _ =>
  refine Or.inr ⟨rfl, rfl, rfl, _, rfl, ?_⟩
  rw [on_createGraph_of_accepted resultsAccepted sinksAccepted parametersAccepted]
  rcases (schedule network.graphs.nextId).on
      (network.addGraph { name := Graph.defaultName, parameters, results, sinks }) with
    ⟨error | nodes, after⟩
  · exact Or.inl ⟨error, rfl⟩
  · dsimp only
    cases after.checkDeclared (after.graph network.graphs.nextId) nodes with
    | error error => exact Or.inl ⟨error, rfl⟩
    | ok _ => exact Or.inr ⟨nodes, rfl, rfl⟩

theorem within_createGraph {related : Network → Network → Prop} [IsPreorder Network related]
    (added : ∀ network graph, related network (network.addGraph graph))
    (scheduled : ∀ id, (schedule id).Within related)
    (dropped : ∀ network id, related network (network.dropGraph id))
    (reported : ∀ event, (report event).Within related) (results sinks parameters : List NodeId) :
    (createGraph results sinks parameters).Within related := by
  intro network
  rcases on_createGraph_cases results sinks parameters network with
    ⟨error, outcome⟩ | ⟨-, -, -, answer, asked, outcome⟩
  · rw [outcome]
    exact refl_of related network
  · have reached : related network answer.2 := by
      rw [asked]
      exact trans_of related (added network _) (scheduled _ _)
    rcases outcome with ⟨error, outcome⟩ | ⟨nodes, -, outcome⟩ <;> rw [outcome]
    · exact trans_of related reached (dropped _ _)
    · exact trans_of related reached (reported _ _)

end CreatedGraph

section AddedOutput

theorem on_create_result (port : OutputPort) (network : Network) :
    (create .result [port] none).on network =
      if port.index < network.outputCount port.node then
        (.ok network.nodes.nextId,
          network.addNode (defaultName .result network.nodes.nextId) .result [port]
            [network.tensorType port])
      else
        (.error (.indexOutOfRange port.index (network.outputCount port.node)), network) := by
  split
  next valid => exact on_create_of_inferred none rfl (by simpa using valid) rfl
  next invalid =>
    have sensible : (checkOperator .result).on network = (.ok (), network) := rfl
    have checked : ([port].forM checkPort).on network =
        (.error (.indexOutOfRange port.index (network.outputCount port.node)), network) := by
      change (checkPort port >>= fun _ => pure ()).on network = _
      rw [on_bind, checkPort, on_ask, if_neg invalid]
    rw [create, on_bind, sensible]
    dsimp only
    rw [on_bind, checked]

variable {id : GraphId} {target : OutputTarget} {network scheduled : Network}
  {nodes : List NodeId}

/-- What is answered for the port that the target singles out: the port itself if it is a
result's, the output of a result of the graph that reads it, or that of a new result. -/
theorem on_addOutput_of_resolved {port : OutputPort}
    (ordered : (schedule id).on network = (.ok nodes, scheduled))
    (resolved : scheduled.resolveTarget nodes target = .ok port) :
    (addOutput id target).on network =
      if scheduled.isResult port.node then (.ok port, scheduled)
      else
        match scheduled.reader? port (scheduled.graph id).results with
        | .error error => (.error error, scheduled)
        | .ok (some result) => (.ok (firstOutput result), scheduled)
        | .ok none =>
            if port.index < scheduled.outputCount port.node then
              (.ok (firstOutput scheduled.nodes.nextId), scheduled.withOutput id port)
            else
              (.error (.indexOutOfRange port.index (scheduled.outputCount port.node)),
                scheduled) := by
  rw [addOutput, on_bind, ordered]
  dsimp only
  rw [on_bind, on_ask, resolved]
  dsimp only
  rw [on_bind, on_get]
  dsimp only
  split
  · rfl
  · rw [on_bind, on_ask]
    rcases scheduled.reader? port (scheduled.graph id).results with error | result | _
    · rfl
    · dsimp only
      rw [on_bind, on_create_result]
      by_cases valid : port.index < scheduled.outputCount port.node
      · rw [if_pos valid, if_pos valid]
        rfl
      · rw [if_neg valid, if_neg valid]
    · rfl

theorem on_addOutput_of_unresolved {error : GraphError}
    (ordered : (schedule id).on network = (.ok nodes, scheduled))
    (unresolved : scheduled.resolveTarget nodes target = .error error) :
    (addOutput id target).on network = (.error error, scheduled) := by
  rw [addOutput, on_bind, ordered]
  dsimp only
  rw [on_bind, on_ask, unresolved]

theorem on_addOutput_of_refused {error : GraphError}
    (refused : (schedule id).on network = (.error error, scheduled)) :
    (addOutput id target).on network = (.error error, scheduled) := by
  rw [addOutput, on_bind, refused]

/-- How the port that a target singles out is given out: it is answered itself if it is a
result's, or else the output of a result of the graph that reads it, or that of a new result
if there is none. -/
inductive GivesOut (id : GraphId) (network : Network) (port : OutputPort) :
    OutputPort → Network → Prop where
  | itself (isResult : network.isResult port.node) : GivesOut id network port port network
  | read {result : NodeId} (noResult : network.isResult port.node = false)
      (reads : network.reader? port (network.graph id).results = .ok (some result)) :
      GivesOut id network port (firstOutput result) network
  | added (noResult : network.isResult port.node = false)
      (unread : network.reader? port (network.graph id).results = .ok none)
      (valid : port.index < network.outputCount port.node) :
      GivesOut id network port (firstOutput network.nodes.nextId) (network.withOutput id port)

/-- Giving out a tensor is refused once the schedule was asked for, or the target singles out
a port, which is given out. -/
theorem on_addOutput_cases (id : GraphId) (target : OutputTarget) (network : Network) :
    (∃ error, (addOutput id target).on network = (.error error, ((schedule id).on network).2)) ∨
    ∃ nodes scheduled port output after, (schedule id).on network = (.ok nodes, scheduled) ∧
      scheduled.resolveTarget nodes target = .ok port ∧
      GivesOut id scheduled port output after ∧
      (addOutput id target).on network = (.ok output, after) := by
  rcases ordered : (schedule id).on network with ⟨error | nodes, scheduled⟩
  · exact Or.inl ⟨error, on_addOutput_of_refused ordered⟩
  cases resolved : scheduled.resolveTarget nodes target with
  | error error => exact Or.inl ⟨error, on_addOutput_of_unresolved ordered resolved⟩
  | ok port =>
      have answer := on_addOutput_of_resolved ordered resolved
      split at answer
      next isResult =>
        exact Or.inr ⟨nodes, scheduled, port, _, _, rfl, resolved, .itself isResult, answer⟩
      next noResult =>
        rw [Bool.not_eq_true] at noResult
        split at answer
        next error _ => exact Or.inl ⟨error, answer⟩
        next result reads =>
          exact Or.inr ⟨nodes, scheduled, port, _, _, rfl, resolved, .read noResult reads, answer⟩
        next unread =>
          split at answer
          next valid =>
            exact Or.inr ⟨nodes, scheduled, port, _, _, rfl, resolved,
              .added noResult unread valid, answer⟩
          · exact Or.inl ⟨_, answer⟩

theorem of_on_addOutput {output : OutputPort} {after : Network}
    (ok : (addOutput id target).on network = (.ok output, after)) :
    ∃ nodes scheduled port, (schedule id).on network = (.ok nodes, scheduled) ∧
      scheduled.resolveTarget nodes target = .ok port ∧
      GivesOut id scheduled port output after := by
  rcases on_addOutput_cases id target network with
    ⟨error, refused⟩ | ⟨nodes, scheduled, port, _, _, ordered, resolved, gives, outcome⟩
  · rw [refused] at ok
    cases ok
  · obtain ⟨same, rfl⟩ := Prod.mk.inj (outcome.symm.trans ok)
    obtain rfl := Except.ok.inj same
    exact ⟨nodes, scheduled, port, ordered, resolved, gives⟩

end AddedOutput

section Moves

theorem nodeKeeping_moves : NodeKeeping Moves where
  created := follows_create
  inferred := follows_inferNode
  redeclared := follows_redeclare
  renamed := follows_rename
  namesSet := follows_setNames
  namesAdded := follows_addNames
  reported := follows_report

theorem follows_createGraph (results sinks parameters : List NodeId) :
    (createGraph results sinks parameters).Follows := by
  intro network
  rcases on_createGraph_cases results sinks parameters network with
    ⟨error, outcome⟩ | ⟨resultsAccepted, sinksAccepted, parametersAccepted, scheduled, asked,
      outcome⟩
  · rw [outcome]
  · have isStale : ¬ ((network.addGraph
        { name := Graph.defaultName, parameters, results, sinks }).graph
          network.graphs.nextId).isFresh := by
      rw [Network.graph, graph?_addGraph, if_pos rfl]
      exact Bool.false_ne_true
    have reached : Moves network scheduled.2 := by
      rw [asked]
      exact .head (.graphAdded parametersAccepted resultsAccepted sinksAccepted)
        (moves_schedule_of_stale isStale)
    rcases outcome with ⟨error, outcome⟩ | ⟨nodes, -, outcome⟩ <;> rw [outcome]
    · exact .tail reached .graphDropped
    · exact .tail reached .logged

theorem graphKeeping_moves : GraphKeeping Moves where
  toNodeKeeping := nodeKeeping_moves
  scheduled := follows_schedule
  graphCreated := follows_createGraph
  graphRenamed := follows_renameGraph
  graphRetired _ _ _ found := .single (.graphRetired found)
  graphDropped _ _ := .single .graphDropped

theorem follows_addOutput (id : GraphId) (target : OutputTarget) :
    (addOutput id target).Follows := by
  intro network
  have scheduled := follows_schedule id network
  rcases on_addOutput_cases id target network with
    ⟨error, refused⟩ | ⟨nodes, after, port, output, _, ordered, -, gives, outcome⟩
  · rw [refused]
    exact scheduled
  · rw [ordered] at scheduled
    rw [outcome]
    cases gives with
    | itself isResult => exact scheduled
    | read noResult reads => exact scheduled
    | added noResult unread valid =>
        exact .tail (.tail scheduled (.outputAdded valid rfl)) .logged

theorem follows_validate (id : GraphId) : (validate id).Follows :=
  nodeKeeping_moves.validate (follows_schedule id)

theorem follows_declareShapes (shapes : List (NodeId × PartialShape)) :
    (declareShapes shapes).Follows :=
  nodeKeeping_moves.declareShapes shapes

theorem follows_reshape (id : GraphId) (requests : List (ShapeTarget × PartialShape)) :
    (reshape id requests).Follows :=
  nodeKeeping_moves.reshape (follows_schedule id) requests

end Moves

end TensorGraph.Edit
