import Mathlib
import TensorGraph.Proofs.Consumers
import TensorGraph.Proofs.ControlEdges
import TensorGraph.Proofs.Handles

/-!
# Lifetime is reachability

A release counts who holds each node and drops what nothing holds.  Without counting: what
stays is the largest group of live nodes in which handles or graphs refer to a node or a node
of the group depends on it.  Between commands everything alive is in that group; so what
handles and graphs reach is alive, and where no nodes hold each other in a cycle nothing else
is.
-/

namespace TensorGraph

open Relation

namespace Network

/-- A handle or a graph refers to the node. -/
def Anchors (network : Network) (held : List NodeId) (id : NodeId) : Prop :=
  id ∈ held ∨ ∃ number graph, network.graph? number = some graph ∧ id ∈ graph.held

/-- The node is one of a group of live nodes each of which is referred to or is a dependency
of another one of the group. -/
def Supported (network : Network) (held : List NodeId) (id : NodeId) : Prop :=
  ∃ group : NodeId → Prop, group id ∧ ∀ member, group member → network.Alive member ∧
    (network.Anchors held member ∨ ∃ holder, group holder ∧ network.DependsOn holder member)

section Release

variable {network other : Network} {held : List NodeId} {id : NodeId}

theorem mem_roots_iff :
    id ∈ held ++ network.graphs.values.flatMap GraphRecord.held ↔ network.Anchors held id := by
  rw [List.mem_append, List.mem_flatMap, Anchors]
  refine or_congr_right ⟨?_, ?_⟩
  · rintro ⟨record, stored, member⟩
    obtain ⟨number, found⟩ := Store.mem_values.mp stored
    cases record with
    | live graph => exact ⟨number, graph, by rw [graph?, found]; rfl, member⟩
    | retained info => cases member
  · rintro ⟨number, graph, found, member⟩
    exact ⟨.live graph, Store.mem_values.mpr ⟨number, get?_of_graph? found⟩, member⟩

/-- What stays in a release is what is supported. -/
theorem mem_survivors_iff : id ∈ network.survivors held ↔ network.Supported held id := by
  have bounded := network.lt_nextId_of_mem_ids
  constructor
  · intro stays
    refine ⟨(· ∈ network.survivors held), stays, fun member stays => ⟨?_, ?_⟩⟩
    · exact mem_ids.mp ((network.survivors_sublist held).subset stays)
    · exact (Lifetime.settle_held bounded member stays).imp_left mem_roots_iff.mp
  · rintro ⟨group, inGroup, supported⟩
    refine Lifetime.settle_keeps bounded (fun member inGroup => ?_) (fun member inGroup => ?_)
      id inGroup
    · exact (supported member inGroup).2.imp_left mem_roots_iff.mpr
    · exact mem_ids.mpr (supported member inGroup).1

theorem Supported.alive (supported : network.Supported held id) : network.Alive id := by
  obtain ⟨group, inGroup, members⟩ := supported
  exact (members id inGroup).1

theorem alive_release_iff_supported :
    (network.release held).Alive id ↔ network.Supported held id := by
  rw [alive_release_iff, mem_survivors_iff, and_iff_left_iff_imp]
  exact Supported.alive

theorem anchors_congr (graphs : ∀ number, (other.graph? number).map Graph.held =
    (network.graph? number).map Graph.held) : other.Anchors held id ↔ network.Anchors held id := by
  refine or_congr Iff.rfl (exists_congr fun number => ?_)
  rcases map_eq_map_cases (graphs number) with ⟨later, former⟩ | ⟨graph, former, later, known, same⟩
  · simp [later, former]
  · simp [later, known, same]

/-- Nothing but dependencies and what graphs hold makes a difference to a release. -/
theorem supported_congr (dependencies : Agree Node.dependencies network other)
    (graphs : ∀ number, (other.graph? number).map Graph.held =
      (network.graph? number).map Graph.held) :
    other.Supported held id ↔ network.Supported held id := by
  have depends (holder member : NodeId) :
      other.DependsOn holder member ↔ network.DependsOn holder member := by
    rw [DependsOn, DependsOn, dependencies.dependencies_eq]
  simp only [Supported, anchors_congr graphs, depends, dependencies.alive_iff]

end Release

section Reachability

variable {network : Network} {held : List NodeId}

/-- Where no live nodes depend on each other in a cycle, going from dependencies to their
dependents comes to an end. -/
theorem wellFounded_dependents (acyclic : ∀ id, ¬ TransGen network.DependsOn id id) :
    WellFounded fun holder member : { id // id ∈ network.nodes.ids } =>
      TransGen network.DependsOn holder member := by
  have : IsTrans { id // id ∈ network.nodes.ids } fun holder member =>
      TransGen network.DependsOn holder member := ⟨fun _ _ _ => TransGen.trans⟩
  have : Std.Irrefl fun holder member : { id // id ∈ network.nodes.ids } =>
      TransGen network.DependsOn holder member := ⟨fun member => acyclic member⟩
  exact Finite.wellFounded_of_trans_of_irrefl _

/-- There is no cycle where every node was made after those that it depends on. -/
theorem acyclic_of_descending
    (descends : ∀ dependent dependency, network.DependsOn dependent dependency →
      dependency < dependent) (id : NodeId) : ¬ TransGen network.DependsOn id id := by
  have below {dependent dependency : NodeId}
      (path : TransGen network.DependsOn dependent dependency) : dependency < dependent := by
    induction path with
    | single depends => exact descends _ _ depends
    | tail _ depends ih => exact Nat.lt_trans (descends _ _ depends) ih
  exact fun cycle => Nat.lt_irrefl id (below cycle)

theorem acyclic_of_all_descending
    (descends : network.nodes.ids.all fun id => (network.dependencies id).all (· < id))
    (id : NodeId) : ¬ TransGen network.DependsOn id id := by
  refine acyclic_of_descending (fun dependent dependency depends => ?_) id
  rw [List.all_eq_true] at descends
  have below := descends dependent (mem_ids.mpr (alive_of_dependsOn depends))
  exact of_decide_eq_true (List.all_eq_true.mp below dependency depends)

/-- Without cycles, every supported node is reached from one that handles or graphs refer to. -/
theorem exists_anchor_of_supported (acyclic : ∀ id, ¬ TransGen network.DependsOn id id)
    {id : NodeId} (supported : network.Supported held id) :
    ∃ anchor, network.Anchors held anchor ∧ ReflTransGen network.DependsOn anchor id := by
  obtain ⟨group, inGroup, members⟩ := supported
  have listed {member : NodeId} (inGroup : group member) : member ∈ network.nodes.ids :=
    mem_ids.mpr (members member inGroup).1
  suffices climbs : ∀ node : { id // id ∈ network.nodes.ids }, group node →
      ∃ anchor, network.Anchors held anchor ∧ ReflTransGen network.DependsOn anchor node from
    climbs ⟨id, listed inGroup⟩ inGroup
  intro node
  induction node using (wellFounded_dependents acyclic).induction with
  | _ node ih =>
      intro inGroup
      rcases (members node inGroup).2 with anchored | ⟨holder, holderInGroup, depends⟩
      · exact ⟨node, anchored, .refl⟩
      · obtain ⟨anchor, anchored, path⟩ :=
          ih ⟨holder, listed holderInGroup⟩ (.single depends) holderInGroup
        exact ⟨anchor, anchored, path.tail depends⟩

end Reachability

end Network

namespace Session

open Network

variable {session : Session}

/-- In every session that commands lead to, the live nodes are the supported ones. -/
theorem Reachable.alive_iff_supported (reachable : session.Reachable) {id : NodeId} :
    session.network.Alive id ↔ session.network.Supported session.held id := by
  rw [← mem_survivors_iff, reachable.kept, mem_ids]

theorem Reachable.alive_of_anchors (reachable : session.Reachable) {id : NodeId}
    (anchored : session.network.Anchors session.held id) : session.network.Alive id := by
  rcases anchored with held | ⟨number, graph, found, held⟩
  · exact reachable.grounded id held
  · exact reachable.coherent.alive_of_mem_held found held

theorem Reachable.alive_of_reached (reachable : session.Reachable) {anchor id : NodeId}
    (anchored : session.network.Anchors session.held anchor)
    (path : ReflTransGen session.network.DependsOn anchor id) : session.network.Alive id := by
  induction path with
  | refl => exact reachable.alive_of_anchors anchored
  | tail _ depends ih => exact reachable.coherent.dependencies _ _ depends

/-- In every session that commands lead to, what is reached along inputs and control
dependencies from a handle, from the boundary of a graph or from its stored schedule is alive,
and nothing else is if no nodes depend on each other in a cycle.  A live node is always
referred to or a dependency of a live node; consumers, control dependents, memberships and
the rosters and roots of graphs make no difference to what a release keeps, whatever handles
hold; and the consumers of an output, the control dependents of a node and the members of a
graph are alive. -/
theorem Reachable.lifetime_is_reachability (reachable : session.Reachable) :
    (∀ anchor id, session.network.Anchors session.held anchor →
      ReflTransGen session.network.DependsOn anchor id → session.network.Alive id) ∧
    ((∀ id, session.network.Alive id → ¬ TransGen session.network.DependsOn id id) →
      ∀ id, session.network.Alive id → ∃ anchor, session.network.Anchors session.held anchor ∧
        ReflTransGen session.network.DependsOn anchor id) ∧
    (∀ id, session.network.Alive id → session.network.Anchors session.held id ∨
      ∃ holder, session.network.Alive holder ∧ session.network.DependsOn holder id) ∧
    (∀ (network other : Network) (held : List NodeId), Agree Node.dependencies network other →
      (∀ number, (other.graph? number).map Graph.held =
        (network.graph? number).map Graph.held) →
      ∀ id, (other.release held).Alive id ↔ (network.release held).Alive id) ∧
    (∀ port, ∀ input ∈ session.network.consumers port, session.network.Alive input.node) ∧
    (∀ id, ∀ dependent ∈ session.network.controlDependents id,
      session.network.Alive dependent) ∧
    ∀ id graph, session.network.graph? id = some graph →
      (∀ node ∈ graph.roster, session.network.Alive node) ∧
      ∀ nodes, session.network.members graph.toGraphInfo = .ok nodes →
        ∀ node ∈ nodes, session.network.Alive node := by
  refine ⟨fun _ _ => reachable.alive_of_reached, fun acyclic id alive => ?_, fun id alive => ?_,
    fun network other held dependencies graphs id => ?_,
    fun port input member => reachable.linked.alive_of_consumer member,
    fun id dependent member => reachable.mirrored.alive_dependent member,
    fun id graph found => ⟨fun node member => ?_, fun nodes listed node member => ?_⟩⟩
  · have supported := reachable.alive_iff_supported.mp alive
    refine exists_anchor_of_supported (fun node cycle => ?_) supported
    obtain ⟨next, first, -⟩ := TransGen.head'_iff.mp cycle
    exact acyclic node (alive_of_dependsOn first) cycle
  · obtain ⟨group, inGroup, members⟩ := reachable.alive_iff_supported.mp alive
    refine (members id inGroup).2.imp_right ?_
    rintro ⟨holder, holderInGroup, depends⟩
    exact ⟨holder, (members holder holderInGroup).1, depends⟩
  · rw [alive_release_iff_supported, alive_release_iff_supported,
      supported_congr dependencies graphs]
  · rw [reachable.coherent.roster id graph found] at member
    exact reachable.coherent.schedule id graph found node member
  · rw [Network.members] at listed
    split at listed
    · obtain rfl := Except.ok.inj listed
      exact (mem_living.mp member).2
    · exact alive_of_order listed node member

/-- A result that reads a parameter, but read a rectifier of it when the schedule of the graph
was computed; a rectifier that only a handle of its input holds; and one that nothing holds
any more, although it read the parameter and was ordered after the other rectifier. -/
def scattered : Session :=
  empty.run [
    .create (.parameter { elementType := .f32, shape := .fixed [2, 3] }) [] none (.text "feed"),
    .create .relu [⟨1, 0⟩] none (.text "rectifier"),
    .create .result [⟨2, 0⟩] none (.text "outcome"),
    .createGraph [3] [1] [] .absent (.text "graph"),
    .create .relu [⟨1, 0⟩] none (.text "reader"),
    .inspectInput ⟨4, 0⟩ (.text "input"),
    .create .relu [⟨1, 0⟩] none (.text "loose"),
    .addControlDependency 5 2,
    .setSource ⟨3, 0⟩ ⟨1, 0⟩,
    .dropNode "loose", .dropNode "reader", .dropNode "outcome", .dropNode "rectifier",
    .dropNode "feed"]

theorem scattered_reachable : scattered.Reachable :=
  ⟨_, rfl⟩

theorem graph?_scattered :
    scattered.network.graph? 1 = some {
      name := "default_graph"
      parameters := [1], results := [3], sinks := []
      schedule := [1, 2, 3], revision := 1, isFresh := false
      roster := [1, 2, 3], roots := [3, 1] } ∧
    (scattered.network.graph? 1).map (scattered.network.members ·.toGraphInfo) =
      some (.ok [1, 3]) := by
  cbv

/-- Every node of the session was made after those that it depends on. -/
theorem edges_scattered :
    scattered.network.nodes.ids = [4, 3, 2, 1] ∧
    (scattered.network.nodes.ids.all fun id => (scattered.network.dependencies id).all (· < id)) ∧
    scattered.network.consumers ⟨1, 0⟩ = [⟨2, 0⟩, ⟨4, 0⟩, ⟨3, 0⟩] ∧
    scattered.network.controlDependents 2 = [] := by
  cbv

theorem alive_scattered :
    scattered.network.Alive 2 ∧ scattered.network.nodes.ids = [4, 3, 2, 1] ∧
    (∃ anchor, scattered.network.Anchors scattered.held anchor ∧
      ReflTransGen scattered.network.DependsOn anchor 4) ∧
    scattered.network.consumers ⟨1, 0⟩ = [⟨2, 0⟩, ⟨4, 0⟩, ⟨3, 0⟩] ∧
    scattered.network.controlDependents 2 = [] ∧
    scattered.network.Alive 3 := by
  obtain ⟨reached, only, -, -, consumers, -, members⟩ :=
    scattered_reachable.lifetime_is_reachability
  obtain ⟨found, listed⟩ := graph?_scattered
  rw [found, Option.map_some] at listed
  obtain ⟨ids, descends, ofFeed, ofRectifier⟩ := edges_scattered
  refine ⟨reached 2 2 (Or.inr ⟨1, _, found, by decide⟩) .refl, ids, ?_, ofFeed, ofRectifier, ?_⟩
  · refine only (fun id _ => acyclic_of_all_descending descends id) 4 (mem_ids.mp ?_)
    rw [ids]
    decide
  · exact (members 1 _ found).2 [1, 3] (Option.some.inj listed) 3 (by decide)

end Session
end TensorGraph
