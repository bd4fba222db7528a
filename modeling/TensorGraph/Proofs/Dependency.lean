import TensorGraph.Proofs.Frames
import TensorGraph.Proofs.Traversal

/-!
# Dependency order of a network

An order lists exactly the live nodes that its roots reach, each after its
dependencies, or there is a cycle within reach.  Where the roots and all
dependencies are alive, that is all that the roots reach.  An order that was found
stays the same while nothing changes about the nodes in it.
-/

namespace TensorGraph.Network

open Relation

/-- One of the roots is the node or depends on it, directly or through others. -/
def Reaches (network : Network) (roots : List NodeId) (id : NodeId) : Prop :=
  ∃ root ∈ roots, ReflTransGen network.DependsOn root id

/-- The nodes that the roots reach, each once and after its dependencies. -/
structure Ordered (network : Network) (roots nodes : List NodeId) : Prop where
  nodup : nodes.Nodup
  mem_iff : ∀ id, id ∈ nodes ↔ network.Reaches roots id
  after : ∀ earlier id later, nodes = earlier ++ id :: later →
    ∀ dependency ∈ network.dependencies id, dependency ∈ earlier
  acyclic : ∀ id ∈ nodes, ¬ TransGen network.DependsOn id id

variable {network : Network} {roots nodes : List NodeId}

theorem Reaches.step {id dependency : NodeId} (reaches : network.Reaches roots id)
    (depends : network.DependsOn id dependency) : network.Reaches roots dependency := by
  obtain ⟨root, member, path⟩ := reaches
  exact ⟨root, member, path.tail depends⟩

section Congruence

variable {before after : Network}
  (same : ∀ id, before.Reaches roots id → after.dependencies id = before.dependencies id)

include same

/-- What is within reach depends on nothing but the dependencies of the nodes there. -/
theorem reaches_congr {id : NodeId} : after.Reaches roots id ↔ before.Reaches roots id := by
  constructor
  · rintro ⟨root, member, path⟩
    induction path with
    | refl => exact ⟨root, member, .refl⟩
    | @tail between dependency _ depends ih =>
        refine ih.step ?_
        rw [DependsOn, ← same between ih]
        exact depends
  · rintro ⟨root, member, path⟩
    induction path with
    | refl => exact ⟨root, member, .refl⟩
    | @tail between dependency path depends ih =>
        refine ih.step ?_
        rw [DependsOn, same between ⟨root, member, path⟩]
        exact depends

theorem transGen_of_reaches {id other : NodeId} (reached : before.Reaches roots id)
    (path : TransGen after.DependsOn id other) :
    TransGen before.DependsOn id other ∧ before.Reaches roots other := by
  have depends {node dependency : NodeId} (reached : before.Reaches roots node)
      (depends : after.DependsOn node dependency) : before.DependsOn node dependency := by
    rw [DependsOn, ← same node reached]
    exact depends
  induction path with
  | single first => exact ⟨.single (depends reached first), reached.step (depends reached first)⟩
  | tail _ last ih => exact ⟨ih.1.tail (depends ih.2 last), ih.2.step (depends ih.2 last)⟩

end Congruence

/-- The order of a network is that of the traversal which keeps the unvisited nodes as a
list. -/
theorem order_eq (network : Network) (roots : List NodeId) :
    network.order roots =
      match DepthFirst.traverseFrom network.nodes.ids network.dependencies roots with
      | .ok nodes => .ok nodes
      | .error node => .error (.cycle (network.label node)) := by
  rw [← DepthFirst.order_eq_traverseFrom network.nodes.nodup_ids network.lt_nextId_of_mem_ids]
  rfl

theorem Ordered.mem_of_root (ordered : network.Ordered roots nodes) {root : NodeId}
    (member : root ∈ roots) : root ∈ nodes :=
  (ordered.mem_iff root).mpr ⟨root, member, .refl⟩

theorem Ordered.mem_of_dependency (ordered : network.Ordered roots nodes) {id dependency : NodeId}
    (member : id ∈ nodes) (depends : dependency ∈ network.dependencies id) :
    dependency ∈ nodes :=
  (ordered.mem_iff dependency).mpr (((ordered.mem_iff id).mp member).step depends)

section Alive

variable {id : NodeId}

theorem alive_of_dependsOn {dependent dependency : NodeId}
    (depends : network.DependsOn dependent dependency) : network.Alive dependent := by
  rw [DependsOn, dependencies] at depends
  cases found : network.node? dependent with
  | none => simp [found] at depends
  | some node => exact ⟨node, found⟩

theorem alive_of_cycle (cycle : TransGen network.DependsOn id id) : network.Alive id := by
  obtain ⟨_, depends, -⟩ := TransGen.head'_iff.mp cycle
  exact alive_of_dependsOn depends

theorem leads_le_dependsOn :
    DepthFirst.Leads network.nodes.ids network.dependencies ≤ network.DependsOn :=
  fun _ _ leads => leads.1

/-- A path of dependencies that ends at a live node passes through live nodes alone. -/
theorem leads_of_path {dependency : NodeId} (path : ReflTransGen network.DependsOn id dependency)
    (alive : network.Alive dependency) :
    network.Alive id ∧
      ReflTransGen (DepthFirst.Leads network.nodes.ids network.dependencies) id dependency := by
  induction path using ReflTransGen.head_induction_on with
  | refl => exact ⟨alive, .refl⟩
  | head depends _ ih =>
      exact ⟨alive_of_dependsOn depends, .head ⟨depends, mem_ids.mpr ih.1⟩ ih.2⟩

/-- A traversal of the live nodes comes to the live nodes that the roots reach. -/
theorem reached_iff :
    DepthFirst.Reached network.nodes.ids network.dependencies roots id ↔
      network.Alive id ∧ network.Reaches roots id := by
  constructor
  · rintro ⟨root, member, alive, path⟩
    refine ⟨?_, root, member, ReflTransGen.mono leads_le_dependsOn _ _ path⟩
    cases path with
    | refl => exact mem_ids.mp alive
    | tail _ leads => exact mem_ids.mp leads.2
  · rintro ⟨alive, root, member, path⟩
    obtain ⟨rootAlive, leads⟩ := leads_of_path path alive
    exact ⟨root, member, mem_ids.mpr rootAlive, leads⟩

/-- The nodes of a cycle are alive, since each of them depends on another. -/
theorem transGen_leads_iff :
    TransGen (DepthFirst.Leads network.nodes.ids network.dependencies) id id ↔
      TransGen network.DependsOn id id := by
  refine ⟨TransGen.mono leads_le_dependsOn _ _, fun cycle => ?_⟩
  obtain ⟨dependency, depends, path⟩ := TransGen.head'_iff.mp cycle
  obtain ⟨present, leads⟩ := leads_of_path path (alive_of_cycle cycle)
  exact .head' ⟨depends, mem_ids.mpr present⟩ leads

end Alive

/-- An order lists the live nodes within reach, or there is a cycle among them. -/
theorem order_answers (network : Network) (roots : List NodeId) :
    (∃ nodes, network.order roots = .ok nodes ∧ nodes.Nodup ∧
      DepthFirst.Settled network.nodes.ids network.dependencies nodes.reverse ∧
      ∀ id, id ∈ nodes ↔ network.Alive id ∧ network.Reaches roots id) ∨
    ∃ id, network.order roots = .error (.cycle (network.label id)) ∧
      network.Reaches roots id ∧ TransGen network.DependsOn id id := by
  have answers : DepthFirst.Answers network.nodes.ids network.dependencies roots _ :=
    DepthFirst.traverseFrom_answers network.nodes.nodup_ids roots
  rw [order_eq]
  cases outcome : DepthFirst.traverseFrom network.nodes.ids network.dependencies roots with
  | ok nodes =>
      rw [outcome] at answers
      obtain ⟨nodup, settled, members⟩ := answers
      exact Or.inl ⟨nodes, rfl, nodup, settled, fun id => (members id).trans reached_iff⟩
  | error id =>
      rw [outcome] at answers
      exact Or.inr ⟨id, rfl, (reached_iff.mp answers.1).2, transGen_leads_iff.mp answers.2⟩

theorem of_order (ok : network.order roots = .ok nodes) :
    nodes.Nodup ∧ DepthFirst.Settled network.nodes.ids network.dependencies nodes.reverse ∧
      ∀ id, id ∈ nodes ↔ network.Alive id ∧ network.Reaches roots id := by
  rcases network.order_answers roots with ⟨others, found, answers⟩ | ⟨id, refused, -⟩
  · obtain rfl := Except.ok.inj (found.symm.trans ok)
    exact answers
  · rw [refused] at ok
    cases ok

theorem alive_of_order (ok : network.order roots = .ok nodes) : ∀ id ∈ nodes, network.Alive id :=
  fun id member => (((of_order ok).2.2 id).mp member).1

/-- A live dependency stands before the node that depends on it. -/
theorem mem_earlier_of_order (ok : network.order roots = .ok nodes) {earlier later : List NodeId}
    {id dependency : NodeId} (split : nodes = earlier ++ id :: later)
    (depends : network.DependsOn id dependency) (alive : network.Alive dependency) :
    dependency ∈ earlier := by
  have settled := (of_order ok).2.1
  rw [split, List.reverse_append, List.reverse_cons, List.append_assoc] at settled
  have before := settled.of_append.1 dependency ⟨depends, mem_ids.mpr alive⟩
  exact List.mem_reverse.mp before

/-- No node that was listed lies on a cycle. -/
theorem acyclic_of_order (ok : network.order roots = .ok nodes) {id : NodeId}
    (member : id ∈ nodes) : ¬ TransGen network.DependsOn id id := by
  obtain ⟨nodup, settled, -⟩ := of_order ok
  rw [← transGen_leads_iff]
  exact settled.acyclic (List.nodup_reverse.mpr nodup) (List.mem_reverse.mpr member)

section Closed

variable (closed : ∀ id, ∀ dependency ∈ network.dependencies id, network.Alive dependency)

include closed

theorem alive_of_reaches (alive : ∀ root ∈ roots, network.Alive root) {id : NodeId}
    (reached : network.Reaches roots id) : network.Alive id := by
  obtain ⟨root, member, path⟩ := reached
  cases path with
  | refl => exact alive id member
  | tail _ depends => exact closed _ id depends

theorem ordered_of_order (alive : ∀ root ∈ roots, network.Alive root)
    (ok : network.order roots = .ok nodes) : network.Ordered roots nodes where
  nodup := (of_order ok).1
  mem_iff id :=
    ((of_order ok).2.2 id).trans (and_iff_right_of_imp (alive_of_reaches closed alive))
  after _ id _ split dependency depends :=
    mem_earlier_of_order ok split depends (closed id dependency depends)
  acyclic _ member := acyclic_of_order ok member

/-- The order of the nodes within reach, unless there is a cycle among them. -/
theorem order_cases (alive : ∀ root ∈ roots, network.Alive root) :
    (∃ nodes, network.order roots = .ok nodes ∧ network.Ordered roots nodes) ∨
    ∃ id, network.order roots = .error (.cycle (network.label id)) ∧
      network.Reaches roots id ∧ TransGen network.DependsOn id id :=
  (network.order_answers roots).imp_left fun ⟨nodes, ok, _⟩ =>
    ⟨nodes, ok, ordered_of_order closed alive ok⟩

end Closed

section Agreement

variable {before after : Network} (within : NodeId → Prop)
  (alive : ∀ id, within id → (after.Alive id ↔ before.Alive id))
  (dependencies : ∀ id, within id → after.dependencies id = before.dependencies id)
  (closed : ∀ id, within id → ∀ dependency ∈ before.dependencies id, within dependency)
  (inside : ∀ root ∈ roots, within root)

include alive dependencies closed inside

/-- A traversal takes the same course in networks that agree on a part that holds the roots and
all their dependencies. -/
theorem traversal_congr :
    DepthFirst.traverseFrom after.nodes.ids after.dependencies roots =
      DepthFirst.traverseFrom before.nodes.ids before.dependencies roots := by
  refine DepthFirst.traverseFrom_congr (fun id (member : within id) => ?_)
    before.nodes.nodup_ids after.nodes.nodup_ids (fun id member => ?_) inside
  · exact ⟨dependencies id member, closed id member⟩
  · rw [mem_ids, mem_ids]
    exact alive id member

/-- An order that was found stays while the nodes of a part that holds the roots and
all their dependencies stay. -/
theorem order_congr (ok : before.order roots = .ok nodes) : after.order roots = .ok nodes := by
  rw [order_eq] at ok ⊢
  rw [traversal_congr within alive dependencies closed inside]
  cases outcome : DepthFirst.traverseFrom before.nodes.ids before.dependencies roots with
  | ok found => rw [outcome] at ok; exact ok
  | error id => rw [outcome] at ok; cases ok

/-- A cycle is found at the same node too, and reported in the same way if the nodes are labelled
as before. -/
theorem order_eq_of_agree (labels : ∀ id, within id → after.label id = before.label id) :
    after.order roots = before.order roots := by
  have inReach {id : NodeId} (reaches : before.Reaches roots id) : within id := by
    obtain ⟨root, member, path⟩ := reaches
    induction path with
    | refl => exact inside root member
    | tail _ depends ih => exact closed _ ih _ depends
  have answers : DepthFirst.Answers before.nodes.ids before.dependencies roots _ :=
    DepthFirst.traverseFrom_answers before.nodes.nodup_ids roots
  rw [order_eq, order_eq, traversal_congr within alive dependencies closed inside]
  cases outcome : DepthFirst.traverseFrom before.nodes.ids before.dependencies roots with
  | ok nodes => rfl
  | error id =>
      rw [outcome] at answers
      dsimp only
      rw [labels id (inReach (reached_iff.mp answers.1).2)]

end Agreement

end TensorGraph.Network
