import TensorGraph.Proofs.Ages
import TensorGraph.Proofs.Staleness

/-!
# Exact invalidation

The schedule of a graph becomes stale exactly when a mutation touches one of its nodes, when
the boundary of the graph is edited, or when a tensor is given out through a new result.
Nothing else that a session can be told to do ages it, and so two answers for a graph come
from one computation exactly if nothing of the kind has happened between them.
-/

namespace TensorGraph

open Network

namespace Mutation

/-- The nodes that a mutation touches if it is accepted. -/
def touched (network : Network) : Mutation → List NodeId
  | setSource input source =>
      input.node :: ((network.source? input).toList.map (·.node) ++ [source.node])
  | setSources node sources =>
      node :: ((network.sources node).map (·.node) ++ sources.map (·.node))
  | replaceOutput former replacement =>
      if former = replacement then []
      else
        (network.consumersApart former replacement.node).map (·.node) ++
          [former.node, replacement.node]
  | replaceNode target replacement =>
      if target = replacement then []
      else network.concerned target replacement ++ [target, replacement]
  | addControlDependency dependent dependency =>
      if dependency ∈ network.controlDependencies dependent then [] else [dependent, dependency]
  | removeControlDependency dependent dependency =>
      if dependency ∈ network.controlDependencies dependent then [dependent, dependency] else []
  | clearControlDependencies dependent =>
      if network.controlDependencies dependent = [] then []
      else dependent :: network.controlDependencies dependent
  | _ => []

/-- The graph whose boundary a mutation edits. -/
def bounded? : Mutation → Option GraphId
  | addBoundary _ graph _ | removeBoundary _ graph _ => some graph
  | _ => none

section Accepted

variable {network after : Network}

theorem stales_of_setSource {input : InputPort} {source : OutputPort}
    (accepted : (Edit.setSource input source).on network = (.ok (), after)) :
    Stales ((setSource input source).touched network) network after := by
  obtain ⟨_, checkedIn, checked, asked⟩ := Edit.of_on_bind accepted
  obtain ⟨rfl, valid⟩ := Edit.of_on_checkPort checked
  obtain ⟨former, foundIn, found, changed⟩ := Edit.of_on_bind asked
  obtain ⟨rfl, reads⟩ := Edit.of_on_source found
  obtain rfl := (Prod.mk.inj changed).2
  rw [touched, reads]
  exact stales_rewire _ input former source

theorem stales_of_setSources {id : NodeId} {sources : List OutputPort}
    (accepted : (Edit.setSources id sources).on network = (.ok (), after)) :
    Stales ((setSources id sources).touched network) network after := by
  obtain ⟨_, checkedIn, checked, asked⟩ := Edit.of_on_bind accepted
  obtain ⟨rfl, valid⟩ := Edit.of_on_forM_checkPort checked
  obtain ⟨node, foundIn, found, changed⟩ := Edit.of_on_bind asked
  obtain ⟨rfl, alive⟩ := Edit.of_on_node found
  obtain rfl := (Prod.mk.inj changed).2
  rw [touched, Network.sources, alive]
  exact stales_rewireAll _ id node.sources sources

theorem stales_of_replaceOutput (linked : network.Linked) {former replacement : OutputPort}
    (accepted : (Edit.replaceOutput former replacement).on network = (.ok (), after)) :
    Stales ((replaceOutput former replacement).touched network) network after := by
  rw [Edit.on_replaceOutput linked] at accepted
  split at accepted
  · obtain rfl := (Prod.mk.inj accepted).2
    rw [touched]
    split
    next same =>
      rw [moveConsumers, if_pos same]
      exact .refl network
    next different => exact network.stales_moveConsumers different
  · cases accepted

theorem stales_of_replaceNode (intact : network.Intact) {target replacement : NodeId}
    (accepted : (Edit.replaceNode target replacement).on network = (.ok (), after)) :
    Stales ((replaceNode target replacement).touched network) network after := by
  obtain ⟨⟨alive, present⟩, suits⟩ :=
    (Edit.replaceNode_ok_iff intact).mp (congrArg Prod.fst accepted)
  rw [Edit.on_replaceNode intact alive present] at accepted
  rw [touched]
  by_cases same : target = replacement
  · rw [if_pos same] at accepted ⊢
    rw [← (Prod.mk.inj accepted).2]
    exact .refl network
  · obtain ⟨noResult, counts⟩ := suits same
    rw [if_neg same, if_neg (ne_true_of_eq_false noResult), if_pos counts] at accepted
    rw [if_neg same, ← (Prod.mk.inj accepted).2]
    exact stales_supersede intact.mirrored same present counts

theorem stales_of_addControlDependency {dependent dependency : NodeId}
    (accepted : (Edit.addControlDependency dependent dependency).on network = (.ok (), after)) :
    Stales ((addControlDependency dependent dependency).touched network) network after := by
  by_cases same : dependent = dependency
  · rw [Edit.addControlDependency, if_pos same] at accepted
    cases accepted
  have outcome := accepted
  rw [Edit.addControlDependency, if_neg same] at accepted
  obtain ⟨node, foundIn, found, asked⟩ := Edit.of_on_bind accepted
  obtain ⟨rfl, alive⟩ := Edit.of_on_node found
  obtain ⟨other, knownIn, known, -⟩ := Edit.of_on_bind asked
  obtain ⟨rfl, present⟩ := Edit.of_on_node known
  rw [Edit.on_addControlDependency same ⟨node, alive⟩ ⟨other, present⟩] at outcome
  obtain rfl := (Prod.mk.inj outcome).2
  exact stales_withControl _ dependent dependency

theorem stales_of_removeControlDependency {dependent dependency : NodeId} {removed : Bool}
    (accepted : (Edit.removeControlDependency dependent dependency).on network =
      (.ok removed, after)) :
    Stales ((removeControlDependency dependent dependency).touched network) network after := by
  obtain ⟨node, foundIn, found, -⟩ := Edit.of_on_bind accepted
  obtain ⟨rfl, alive⟩ := Edit.of_on_node found
  rw [Edit.on_removeControlDependency dependency ⟨node, alive⟩] at accepted
  obtain rfl := (Prod.mk.inj accepted).2
  exact stales_withoutControl _ dependent dependency

theorem stales_of_clearControlDependencies {dependent : NodeId}
    (accepted : (Edit.clearControlDependencies dependent).on network = (.ok (), after)) :
    Stales ((clearControlDependencies dependent).touched network) network after := by
  obtain ⟨node, foundIn, found, cleared⟩ := Edit.of_on_bind accepted
  obtain ⟨rfl, alive⟩ := Edit.of_on_node found
  have listed : foundIn.controlDependencies dependent = node.controlDependencies := by
    rw [controlDependencies, alive, Option.elim_some]
  rw [touched, listed]
  by_cases none : node.controlDependencies = []
  · rw [if_neg (not_not.mpr none)] at cleared
    obtain rfl := (Prod.mk.inj cleared).2
    rw [if_pos none]
    exact .refl _
  · rw [if_pos none] at cleared
    obtain rfl := (Prod.mk.inj cleared).2
    rw [if_neg none]
    exact stales_clearControl _ dependent _

/-- An accepted mutation that edits no boundary makes exactly the graphs stale that know a node
which it touches. -/
theorem graph?_of_ok (intact : network.Intact) {mutation : Mutation}
    (inner : mutation.bounded? = none)
    (accepted : mutation.edit.on network = (.ok (), after)) (id : GraphId) :
    after.graph? id = (network.graph? id).map fun graph =>
      if ∃ node ∈ mutation.touched network, id ∈ network.memberships node then
        { graph with isFresh := false }
      else graph := by
  have untouched {later : Network} (keeps : KeepsGraphs network later) :
      later.graph? id = (network.graph? id).map fun graph =>
        if ∃ node ∈ [], id ∈ network.memberships node then { graph with isFresh := false }
        else graph := by
    simp [graph?, show later.graphs = network.graphs from keeps]
  have keeping := Edit.nodeKeeping_keepsGraphs
  obtain rfl : after = (mutation.edit.on network).2 := (congrArg Prod.snd accepted).symm
  cases mutation with
  | setSource _ _ => exact (stales_of_setSource accepted).graph? id
  | setSources _ _ => exact (stales_of_setSources accepted).graph? id
  | replaceOutput _ _ => exact (stales_of_replaceOutput intact.linked accepted).graph? id
  | replaceNode _ _ => exact (stales_of_replaceNode intact accepted).graph? id
  | addControlDependency _ _ => exact (stales_of_addControlDependency accepted).graph? id
  | removeControlDependency dependent dependency =>
      obtain ⟨removed, between, outcome, answered⟩ := Edit.of_on_bind accepted
      rw [← (Prod.mk.inj answered).2]
      exact (stales_of_removeControlDependency outcome).graph? id
  | clearControlDependencies _ => exact (stales_of_clearControlDependencies accepted).graph? id
  | inferNode node => exact untouched (keeping.inferred node network)
  | declareShape node shape => exact untouched (keeping.redeclared node _ _ network)
  | declareElementType node elementType => exact untouched (keeping.redeclared node _ _ network)
  | setNames port names => exact untouched (keeping.namesSet port names network)
  | addNames port names => exact untouched (keeping.namesAdded port names network)
  | addBoundary _ _ _ | removeBoundary _ _ _ => cases inner

/-- An accepted edit of the boundary of a graph touches the boundary and nothing else. -/
theorem eq_of_bounded {mutation : Mutation} {bounded : GraphId}
    (bounds : mutation.bounded? = some bounded)
    (accepted : mutation.edit.on network = (.ok (), after)) :
    ∃ part change, after =
      (network.modifyGraph bounded (·.modifyBoundary part change)).touchBoundary bounded := by
  cases mutation with
  | addBoundary part graph nodes =>
      obtain rfl := Option.some.inj bounds
      obtain ⟨_, between, checked, changed⟩ := Edit.of_on_bind accepted
      rw [Edit.on_ask] at checked
      obtain rfl := (Prod.mk.inj checked).2
      exact ⟨part, _, (Prod.mk.inj changed).2.symm⟩
  | removeBoundary part graph node =>
      obtain rfl := Option.some.inj bounds
      obtain ⟨_, between, asked, removed⟩ := Edit.of_on_bind accepted
      rw [Edit.on_get] at asked
      cases asked
      by_cases present : node ∈ (network.graph graph).boundary part
      · rw [if_neg (not_not.mpr present)] at removed
        exact ⟨part, _, (Prod.mk.inj removed).2.symm⟩
      · rw [if_pos present] at removed
        cases (Prod.mk.inj removed).1
  | _ => cases bounds

theorem touched_of_bounded {mutation : Mutation} {bounded : GraphId}
    (bounds : mutation.bounded? = some bounded) (network : Network) :
    mutation.touched network = [] := by
  cases mutation with
  | addBoundary _ _ _ | removeBoundary _ _ _ => rfl
  | _ => cases bounds

end Accepted

/-- The mutation, once accepted, makes the schedule of the graph stale: it edits the boundary of
the graph or touches a node of the schedule. -/
def Disturbs (mutation : Mutation) (network : Network) (id : GraphId) : Prop :=
  mutation.bounded? = some id ∨ ∃ node ∈ mutation.touched network,
    node ∈ (network.graph id).schedule

variable {network after : Network}

/-- What an accepted mutation does to a graph: it either disturbs the graph, which is stale
afterwards, or leaves it with the same schedule in the same state. -/
theorem issue_or_stale (coherent : network.Coherent) (intact : network.Intact)
    {mutation : Mutation} (accepted : mutation.edit.on network = (.ok (), after)) {id : GraphId}
    {graph later : Graph} (found : network.graph? id = some graph)
    (still : after.graph? id = some later) :
    mutation.Disturbs network id ∧ later.isFresh = false ∨
      ¬ mutation.Disturbs network id ∧ later.issue = graph.issue := by
  cases bounds : mutation.bounded? with
  | none =>
      have knows : (∃ node ∈ mutation.touched network, id ∈ network.memberships node) ↔
          mutation.Disturbs network id := by
        simp only [Disturbs, bounds, coherent.knows_iff found, graph_of_graph? found,
          reduceCtorEq, false_or]
      rw [graph?_of_ok intact bounds accepted, found, Option.map_some] at still
      split at still
      next known => exact Or.inl ⟨knows.mp known, by rw [← Option.some.inj still]⟩
      next unknown => exact Or.inr ⟨mt knows.mpr unknown, by rw [← Option.some.inj still]⟩
  | some bounded =>
      obtain ⟨part, change, rfl⟩ := eq_of_bounded bounds accepted
      rw [graph?_modifyBoundary, found, Option.map_some] at still
      have disturbs : mutation.Disturbs network id ↔ bounded = id := by
        simp [Disturbs, bounds, touched_of_bounded bounds]
      rw [disturbs]
      split at still
      next same => exact Or.inl ⟨same, by rw [← Option.some.inj still]⟩
      next different => exact Or.inr ⟨different, by rw [← Option.some.inj still]⟩

end Mutation

namespace Edit

/-- Giving out a tensor leaves a fresh graph as it is, unless it adds a new result to the
graph. -/
theorem graph?_addOutput {network : Network} {id other : GraphId} {target : OutputTarget}
    {graph later : Graph} (found : network.graph? other = some graph) (isFresh : graph.isFresh)
    (still : ((addOutput id target).on network).2.graph? other = some later) :
    later = graph ∨ other = id ∧ later.isFresh = false ∧
      ∃ result, later.results = graph.results ++ [result] := by
  have kept := graph?_schedule_of_isFresh found isFresh id
  rcases on_addOutput_cases id target network with
    ⟨error, refused⟩ | ⟨nodes, after, port, output, _, ordered, -, gives, outcome⟩
  · rw [refused] at still
    exact Or.inl (Option.some.inj (still.symm.trans kept))
  · rw [ordered] at kept
    rw [outcome] at still
    cases gives with
    | itself isResult => exact Or.inl (Option.some.inj (still.symm.trans kept))
    | read noResult reads => exact Or.inl (Option.some.inj (still.symm.trans kept))
    | added noResult unread valid =>
        rw [graph?_withOutput, kept] at still
        split at still
        next same =>
          obtain rfl := Option.some.inj still
          exact Or.inr ⟨same.symm, rfl, _, rfl⟩
        · exact Or.inl (Option.some.inj still).symm

end Edit

namespace Session

variable {session : Session}

/-- The command makes the schedule of the graph stale: it asks for a mutation that is accepted and
disturbs the graph, or gives out a tensor of the graph through a new result. -/
inductive Disturbs (session : Session) (id : GraphId) : Command → Prop where
  | mutated {command : Command} {mutation : Mutation} {answer : Answer}
      (asks : session.mutation? command = some mutation)
      (accepted : (session.step command).1 = .ok answer)
      (disturbs : mutation.Disturbs session.network id) :
      Disturbs session id command
  | appended {target : OutputTarget} {handle : String} {nodeHandle : GivenText} {result : NodeId}
      (bound : session.graphs.get? handle = some id)
      (appends : ((session.step (.addOutput target handle nodeHandle)).2.network.graph id).results =
        (session.network.graph id).results ++ [result]) :
      Disturbs session id (.addOutput target handle nodeHandle)

/-- Some command of a run makes the schedule of a graph stale. -/
def Disturbed (session : Session) (id : GraphId) : List Command → Prop
  | [] => False
  | command :: commands =>
      session.Disturbs id command ∨ (session.step command).2.Disturbed id commands

section Step

theorem disturbs_clearEvents (session : Session) (mutation : Mutation) (id : GraphId) :
    mutation.Disturbs session.clearEvents.network id ↔ mutation.Disturbs session.network id := by
  have same : mutation.touched session.clearEvents.network = mutation.touched session.network := by
    cases mutation <;> rfl
  rw [Mutation.Disturbs, same]
  rfl

theorem disturbs_iff_of_asks {command : Command} {mutation : Mutation} {id : GraphId}
    (asks : session.mutation? command = some mutation) :
    session.Disturbs id command ↔
      (∃ answer, (session.step command).1 = .ok answer) ∧
        mutation.Disturbs session.network id := by
  constructor
  · intro disturbs
    cases disturbs with
    | mutated other accepted disturbs =>
        obtain rfl := Option.some.inj (asks.symm.trans other)
        exact ⟨⟨_, accepted⟩, disturbs⟩
    | appended => cases asks
  · rintro ⟨⟨answer, accepted⟩, disturbs⟩
    exact .mutated asks accepted disturbs

theorem not_disturbs {command : Command} {id : GraphId} (asksNot : session.mutation? command = none)
    (notAppending : ∀ target handle nodeHandle,
      command ≠ .addOutput target handle nodeHandle) : ¬ session.Disturbs id command := by
  intro disturbs
  cases disturbs with
  | mutated asks => cases asksNot.symm.trans asks
  | appended => exact notAppending _ _ _ rfl

variable {id : GraphId} {graph later : Graph}

theorem Reachable.issue_or_stale_of_asks (reachable : session.Reachable) {command : Command}
    {mutation : Mutation} (asks : session.mutation? command = some mutation)
    (found : session.network.graph? id = some graph)
    (still : (session.step command).2.network.graph? id = some later) :
    session.Disturbs id command ∧ later.isFresh = false ∨
      ¬ session.Disturbs id command ∧ later.issue = graph.issue := by
  rw [disturbs_iff_of_asks asks]
  rcases step_of_asks asks with
    ⟨error, network, -, stepped⟩ | ⟨answer, network, edited, stepped⟩ <;>
    rw [stepped] at still ⊢
  · rw [reachable.step_eq_of_refused asks stepped] at still
    have same : later = graph := Option.some.inj (still.symm.trans found)
    exact Or.inr ⟨by simp, by rw [same]⟩
  · have cleared : Moves session.network session.clearEvents.network := .single .logged
    have reached : network.graph? id = some later := (graph?_release network _ id).symm.trans still
    have effect := Mutation.issue_or_stale (reachable.coherent.of_moves cleared)
      (reachable.intact.of_moves cleared) edited found reached
    rw [disturbs_clearEvents] at effect
    simpa using effect

theorem issue_step_of_keepsEdges {command : Command} (keeps : command.KeepsEdges)
    (found : session.network.graph? id = some graph) (isFresh : graph.isFresh)
    (still : (session.step command).2.network.graph? id = some later) :
    later.issue = graph.issue := by
  rw [graph?_step] at still
  have within : (Action.perform command).Within Calm :=
    Action.leads_perform Edit.graphKeeping_calm.toEdgeKeeping
      (Action.infoKeeping_across Edit.graphKeeping_calm) keeps
  exact (within session.clearEvents).issues id graph later found isFresh still

/-- Whatever it answers, giving out a tensor does to the network what the operation on the graph
of the handle does. -/
theorem network_perform_addOutput (session : Session) (target : OutputTarget) (handle : String)
    (nodeHandle : GivenText) :
    ((Action.perform (.addOutput target handle nodeHandle)).on session).2.network =
      match session.graphs.get? handle with
      | some id => ((Edit.addOutput id target).on session.network).2
      | none => session.network := by
  rw [Action.perform, Action.on_bind, Action.on_graph]
  cases session.graphs.get? handle with
  | none => rfl
  | some id =>
      dsimp only
      rw [Action.on_bind, Action.on_edit]
      rcases (Edit.addOutput id target).on session.network with ⟨error | port, network⟩
      · rfl
      · cases nodeHandle <;> rfl

theorem issue_or_stale_addOutput {target : OutputTarget} {handle : String}
    {nodeHandle : GivenText}
    (found : session.network.graph? id = some graph) (isFresh : graph.isFresh)
    (still : (session.step (.addOutput target handle nodeHandle)).2.network.graph? id =
      some later) :
    session.Disturbs id (.addOutput target handle nodeHandle) ∧ later.isFresh = false ∨
      ¬ session.Disturbs id (.addOutput target handle nodeHandle) ∧
        later.issue = graph.issue := by
  have kept (same : later = graph) :
      ¬ session.Disturbs id (.addOutput target handle nodeHandle) ∧ later.issue = graph.issue := by
    refine ⟨fun disturbs => ?_, by rw [same]⟩
    cases disturbs with
    | mutated asks => cases asks
    | appended bound appends =>
        rw [graph_of_graph? still, graph_of_graph? found, same] at appends
        simp at appends
  have reached := still
  rw [graph?_step, network_perform_addOutput] at reached
  cases bound : session.graphs.get? handle with
  | none =>
      have unbound : session.clearEvents.graphs.get? handle = none := bound
      rw [unbound] at reached
      exact Or.inr (kept (Option.some.inj (reached.symm.trans found)))
  | some other =>
      have stillBound : session.clearEvents.graphs.get? handle = some other := bound
      have foundCleared : session.clearEvents.network.graph? id = some graph := found
      rw [stillBound] at reached
      rcases Edit.graph?_addOutput foundCleared isFresh reached with
        same | ⟨rfl, isStale, result, appends⟩
      · exact Or.inr (kept same)
      · rw [← graph_of_graph? still, ← graph_of_graph? found] at appends
        exact Or.inl ⟨.appended bound appends, isStale⟩

/-- A fresh graph either is disturbed by a command, and stale afterwards, or still has the same
schedule if it is still there. -/
theorem Reachable.issue_or_stale (reachable : session.Reachable) {command : Command}
    (found : session.network.graph? id = some graph) (isFresh : graph.isFresh)
    (still : (session.step command).2.network.graph? id = some later) :
    session.Disturbs id command ∧ later.isFresh = false ∨
      ¬ session.Disturbs id command ∧ later.issue = graph.issue := by
  cases asks : session.mutation? command with
  | some mutation => exact reachable.issue_or_stale_of_asks asks found still
  | none =>
      have passive (keeps : command.KeepsEdges) :=
        issue_step_of_keepsEdges keeps found isFresh still
      cases command with
      | addOutput _ _ _ => exact issue_or_stale_addOutput found isFresh still
      | addBoundary part nodes handle =>
          have unbound : session.clearEvents.graphs.get? handle = none :=
            Option.map_eq_none_iff.mp asks
          rw [graph?_step, Action.perform, Action.on_onGraph_of_unbound unbound] at still
          exact Or.inr ⟨not_disturbs asks (by simp),
            congrArg Graph.issue (Option.some.inj (still.symm.trans found))⟩
      | removeBoundary part node handle =>
          have unbound : session.clearEvents.graphs.get? handle = none :=
            Option.map_eq_none_iff.mp asks
          rw [graph?_step, Action.perform, Action.on_onGraph_of_unbound unbound] at still
          exact Or.inr ⟨not_disturbs asks (by simp),
            congrArg Graph.issue (Option.some.inj (still.symm.trans found))⟩
      | setSource _ _ | setSources _ _ | replaceOutput _ _ | replaceNode _ _
      | addControlDependency _ _ | removeControlDependency _ _ | clearControlDependencies _ =>
          cases asks
      | _ => exact Or.inr ⟨not_disturbs asks (by simp), passive trivial⟩

end Step

section Run

variable {id : GraphId} {graph later : Graph}

/-- A fresh graph that is still there after a run is older if some command has disturbed it, and
has the same schedule, still fresh, if none has. -/
theorem Reachable.older_or_issue (reachable : session.Reachable) {commands : List Command}
    (found : session.network.graph? id = some graph) (isFresh : graph.isFresh)
    (still : (session.run commands).network.graph? id = some later) :
    session.Disturbed id commands ∧ graph.age < later.age ∨
      ¬ session.Disturbed id commands ∧ later.issue = graph.issue := by
  induction commands generalizing session graph with
  | nil =>
      obtain rfl : graph = later := Option.some.inj (found.symm.trans still)
      exact Or.inr ⟨not_false, rfl⟩
  | cons command commands ih =>
      let next := (session.step command).2
      have moves := moves_step session command
      have rest : Moves next.network (next.run commands).network := moves_run next commands
      obtain ⟨middle, between⟩ := exists_graph_between moves rest found still
      rw [Disturbed]
      rcases reachable.issue_or_stale found isFresh between with
        ⟨disturbs, isStale⟩ | ⟨calm, same⟩
      · have strictly :=
          Graph.age_lt_of_stale isFresh isStale (age_le_of_moves moves found between)
        have older := age_le_of_moves rest between still
        exact Or.inl ⟨Or.inl disturbs, Nat.lt_of_lt_of_le strictly older⟩
      · have stillFresh := (Graph.isFresh_eq_of_issue same).trans isFresh
        rcases ih (reachable.step command) between stillFresh still with
          ⟨disturbed, strictly⟩ | ⟨undisturbed, unchanged⟩
        · rw [Graph.age_eq_of_issue same] at strictly
          exact Or.inl ⟨Or.inr disturbed, strictly⟩
        · exact Or.inr ⟨not_or.mpr ⟨calm, undisturbed⟩, unchanged.trans same⟩

/-- A graph whose schedule is asked for after a run has the schedule that it had before if and
only if no command of the run has disturbed it. -/
theorem Reachable.revision_eq_iff (reachable : session.Reachable) {commands : List Command}
    {handle : String} {middle : Graph} (found : session.network.graph? id = some graph)
    (isFresh : graph.isFresh) (between : (session.run commands).network.graph? id = some middle)
    (still : ((session.run commands).step (.schedule handle)).2.network.graph? id = some later)
    (isFreshLater : later.isFresh) :
    (later.revision = graph.revision ↔ ¬ session.Disturbed id commands) ∧
      (¬ session.Disturbed id commands → later.schedule = graph.schedule) := by
  rcases reachable.older_or_issue found isFresh between with
    ⟨disturbed, strictly⟩ | ⟨undisturbed, same⟩
  · have older := age_le_of_moves (moves_step _ _) between still
    have different : later.revision ≠ graph.revision := by
      have aged := Nat.lt_of_lt_of_le strictly older
      rw [Graph.age_of_isFresh isFresh, Graph.age_of_isFresh isFreshLater] at aged
      omega
    exact ⟨iff_of_false different (not_not.mpr disturbed), absurd disturbed⟩
  · have stillFresh := (Graph.isFresh_eq_of_issue same).trans isFresh
    rcases (reachable.run commands).issue_or_stale between stillFresh still with
      ⟨disturbs, -⟩ | ⟨-, unchanged⟩
    · exact absurd disturbs (not_disturbs rfl (by simp))
    · have issues := unchanged.trans same
      simp only [Graph.issue, Prod.mk.injEq] at issues
      exact ⟨iff_of_true issues.2.1 undisturbed, fun _ => issues.2.2⟩

/-- A schedule that a session answers is stored, and the handle remembers the computation that
it comes from. -/
theorem step_schedule {handle : String} (bound : session.graphs.get? handle = some id)
    (found : session.network.graph? id = some graph) {answer : Answer} {after : Session}
    (answers : session.step (.schedule handle) = (.ok answer, after)) :
    ∃ current, after.network.graph? id = some current ∧ current.isFresh ∧
      after.answered.get? handle = some ⟨id, current.revision⟩ ∧
      answer = .schedule current.schedule
        (session.answered.get? handle = some ⟨id, current.revision⟩) := by
  have stillBound : session.clearEvents.graphs.get? handle = some id := bound
  rw [Session.step, Action.perform, Action.schedule, Action.on_bind, Action.on_graph,
    stillBound] at answers
  dsimp only at answers
  rw [Action.on_bind, Action.on_edit] at answers
  rcases outcome : (Edit.schedule id).on session.clearEvents.network with
    ⟨error | nodes, network⟩ <;>
    rw [outcome] at answers
  · cases (Prod.mk.inj answers).1
  · have foundCleared : session.clearEvents.network.graph? id = some graph := found
    obtain ⟨current, stored, isFresh, rfl⟩ := Edit.graph?_of_on_schedule foundCleared outcome
    have revision : (network.graph id).revision = current.revision := by
      rw [graph_of_graph? stored]
    obtain ⟨answered, rfl⟩ := Prod.mk.inj answers
    refine ⟨current, (graph?_release network _ id).trans stored, isFresh, ?_, ?_⟩
    · change (session.answered.insert handle ⟨id, (network.graph id).revision⟩).get? handle = _
      rw [Table.get?_insert, if_pos rfl, revision]
    · rw [← revision]
      exact (Except.ok.inj answered).symm

/-- In every session that commands lead to, a command makes a fresh schedule stale exactly if it
asks for a mutation that is accepted and touches a node of the schedule or edits the boundary
of the graph, or gives out a tensor of the graph through a new result.  Two schedules that are
answered for a graph therefore come from one computation exactly if no command between them
does so, and then they are the same; where nothing else was answered under the handle in
between, the second answer tells which of the two it is. -/
theorem Reachable.invalidation_exact (reachable : session.Reachable) (id : GraphId) :
    (∀ command graph later, session.network.graph? id = some graph → graph.isFresh →
      (session.step command).2.network.graph? id = some later →
        (later.isFresh = false ↔ session.Disturbs id command)) ∧
    ∀ (handle other : String) (ids laterIds : List NodeId) (isSame isSameLater : Bool)
      (first last : Session) (commands : List Command),
      session.graphs.get? handle = some id → session.network.graph? id ≠ none →
      session.step (.schedule handle) = (.ok (.schedule ids isSame), first) →
      (first.run commands).graphs.get? other = some id →
      (first.run commands).network.graph? id ≠ none →
      (first.run commands).step (.schedule other) =
        (.ok (.schedule laterIds isSameLater), last) →
        (last.answered.get? other = first.answered.get? handle ↔
          ¬ first.Disturbed id commands) ∧
        (¬ first.Disturbed id commands → laterIds = ids) ∧
        ((first.run commands).answered.get? other = first.answered.get? handle →
          (isSameLater ↔ ¬ first.Disturbed id commands)) := by
  constructor
  · intro command graph later found isFresh still
    rcases reachable.issue_or_stale found isFresh still with
      ⟨disturbs, isStale⟩ | ⟨calm, same⟩
    · exact iff_of_true isStale disturbs
    · refine iff_of_false (fun isStale => ?_) calm
      rw [Graph.isFresh_eq_of_issue same, isFresh] at isStale
      cases isStale
  · intro handle other ids laterIds isSame isSameLater first last commands bound live answers
      boundLater liveLater answersLater
    obtain ⟨graph, found⟩ := Option.ne_none_iff_exists'.mp live
    obtain ⟨middle, foundLater⟩ := Option.ne_none_iff_exists'.mp liveLater
    obtain ⟨current, stored, isFresh, stamp, answer⟩ := step_schedule bound found answers
    obtain ⟨later, storedLater, isFreshLater, stampLater, answerLater⟩ :=
      step_schedule boundLater foundLater answersLater
    obtain ⟨rfl, -⟩ := Answer.schedule.inj answer
    obtain ⟨rfl, sameLater⟩ := Answer.schedule.inj answerLater
    have firstReachable : first.Reachable := by
      have stepped := reachable.step (.schedule handle)
      rwa [answers] at stepped
    obtain rfl : last = ((first.run commands).step (.schedule other)).2 :=
      (congrArg Prod.snd answersLater).symm
    obtain ⟨revisions, schedules⟩ :=
      firstReachable.revision_eq_iff stored isFresh foundLater storedLater isFreshLater
    refine ⟨?_, schedules, fun kept => ?_⟩
    · rw [stamp, stampLater, ← revisions]
      simp
    · rw [sameLater, kept, stamp, ← revisions]
      simp [eq_comm]

end Run

/-- A parameter that a rectifier and a result of their own read, in a graph each. -/
def forked : Session :=
  empty.run [
    .create (.parameter { elementType := .f32, shape := .fixed [2, 3] }) [] none (.text "feed"),
    .create .relu [⟨1, 0⟩] none (.text "rectifier"),
    .create .result [⟨2, 0⟩] none (.text "long"),
    .create .result [⟨1, 0⟩] none (.text "short"),
    .createGraph [3] [1] [] .absent (.text "left"),
    .createGraph [4] [1] [] .absent (.text "right")]

theorem forked_reachable : forked.Reachable :=
  ⟨_, rfl⟩

theorem graph?_forked : forked.network.graph? 1 = some {
      name := "default_graph"
      parameters := [1], results := [3], sinks := []
      schedule := [1, 2, 3], revision := 1, isFresh := true
      roster := [1, 2, 3], roots := [3, 1] } ∧
    forked.network.graph? 2 = some {
      name := "default_graph"
      parameters := [1], results := [4], sinks := []
      schedule := [1, 4], revision := 1, isFresh := true
      roster := [1, 4], roots := [4, 1] } ∧
    ((forked.step (.setSource ⟨3, 0⟩ ⟨2, 0⟩)).2.network.graph? 1).map (·.isFresh) =
      some false ∧
    ((forked.step (.setSource ⟨3, 0⟩ ⟨2, 0⟩)).2.network.graph? 2).map (·.isFresh) =
      some true := by
  cbv

/-- A control edge between nodes of one of the graphs is added and removed again. -/
def detour : List Command :=
  [.addControlDependency 3 2, .removeControlDependency 3 2]

/-- The graph that contains the ends of the control edge has its schedule computed again. -/
theorem left_detoured :
    forked.graphs.get? "left" = some 1 ∧
    (forked.step (.schedule "left")).1 = .ok (.schedule [1, 2, 3] false) ∧
    ((forked.step (.schedule "left")).2.run detour).graphs.get? "left" = some 1 ∧
    (((forked.step (.schedule "left")).2.run detour).network.graph? 1).isSome ∧
    (((forked.step (.schedule "left")).2.run detour).step (.schedule "left")).1 =
      .ok (.schedule [1, 2, 3] false) ∧
    ((forked.step (.schedule "left")).2.run detour).answered.get? "left" =
      (forked.step (.schedule "left")).2.answered.get? "left" := by
  cbv

theorem right_detoured :
    forked.graphs.get? "right" = some 2 ∧
    (forked.step (.schedule "right")).1 = .ok (.schedule [1, 4] false) ∧
    ((forked.step (.schedule "right")).2.run detour).graphs.get? "right" = some 2 ∧
    (((forked.step (.schedule "right")).2.run detour).network.graph? 2).isSome ∧
    (((forked.step (.schedule "right")).2.run detour).step (.schedule "right")).1 =
      .ok (.schedule [1, 4] true) ∧
    ((forked.step (.schedule "right")).2.run detour).answered.get? "right" =
      (forked.step (.schedule "right")).2.answered.get? "right" := by
  cbv

theorem invalidation_forked :
    forked.Disturbs 1 (.setSource ⟨3, 0⟩ ⟨2, 0⟩) ∧
    ¬ forked.Disturbs 2 (.setSource ⟨3, 0⟩ ⟨2, 0⟩) ∧
    (forked.step (.schedule "left")).2.Disturbed 1 detour ∧
    ¬ (forked.step (.schedule "right")).2.Disturbed 2 detour := by
  obtain ⟨foundLeft, foundRight, afterLeft, afterRight⟩ := graph?_forked
  obtain ⟨stepsLeft, answersLeft⟩ := forked_reachable.invalidation_exact 1
  obtain ⟨stepsRight, answersRight⟩ := forked_reachable.invalidation_exact 2
  obtain ⟨left, stillLeft, isStale⟩ := Option.map_eq_some_iff.mp afterLeft
  obtain ⟨right, stillRight, isFresh⟩ := Option.map_eq_some_iff.mp afterRight
  refine ⟨(stepsLeft _ _ _ foundLeft rfl stillLeft).mp isStale, fun disturbs => ?_, ?_, ?_⟩
  · have isStale := (stepsRight _ _ _ foundRight rfl stillRight).mpr disturbs
    rw [isFresh] at isStale
    cases isStale
  · obtain ⟨handle, first, bound, live, last, kept⟩ := left_detoured
    have known : forked.network.graph? 1 ≠ none := by
      rw [foundLeft]
      exact Option.some_ne_none _
    have answers := answersLeft "left" "left" _ _ _ _ _ _ detour handle known
      (step_eq_of_ok first) bound (Option.isSome_iff_ne_none.mp live) (step_eq_of_ok last)
    exact not_not.mp fun undisturbed => Bool.false_ne_true ((answers.2.2 kept).mpr undisturbed)
  · obtain ⟨handle, first, bound, live, last, kept⟩ := right_detoured
    have known : forked.network.graph? 2 ≠ none := by
      rw [foundRight]
      exact Option.some_ne_none _
    have answers := answersRight "right" "right" _ _ _ _ _ _ detour handle known
      (step_eq_of_ok first) bound (Option.isSome_iff_ne_none.mp live) (step_eq_of_ok last)
    exact (answers.2.2 kept).mp rfl

end Session
end TensorGraph
