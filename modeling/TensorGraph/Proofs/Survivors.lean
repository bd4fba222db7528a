import Mathlib.Data.List.Count
import Mathlib.Data.List.Perm.Subperm
import TensorGraph.Network.Lifetime
import TensorGraph.Proofs.Frames

/-!
# What a release keeps

A release drops a node only if it is no root and no node that stays depends on
it.  So the nodes that stay contain the roots and are closed under dependencies,
and of each of them only back references to dropped nodes are lost.  They are the
largest group of live nodes in which every node is a root or is held from within.
-/

namespace TensorGraph

namespace Lifetime

variable {size : Nat} {dependencies : Nat → List Nat} {roots alive : List Nat}

/-- The counts of a sweep say how often the roots, the nodes kept so far and the
nodes still to be looked at hold each node. -/
def Counts (size : Nat) (dependencies : Nat → List Nat) (roots kept rest : List Nat)
    (holders : Array Nat) : Prop :=
  ∀ node < size, holders.getD node 0 =
    (roots ++ (kept.flatMap dependencies ++ rest.flatMap dependencies)).count node

theorem Counts.drop {kept rest : List Nat} {node : Nat} {holders : Array Nat}
    (counts : Counts size dependencies roots kept (node :: rest) holders) :
    Counts size dependencies roots kept rest (countLess holders (dependencies node)) := by
  intro other below
  rw [getD_countLess, counts other below]
  simp only [List.flatMap_cons, List.count_append]
  omega

theorem Counts.keep {kept rest : List Nat} {node : Nat} {holders : Array Nat}
    (counts : Counts size dependencies roots kept (node :: rest) holders) :
    Counts size dependencies roots (node :: kept) rest holders := by
  intro other below
  rw [counts other below]
  simp only [List.flatMap_cons, List.count_append]
  omega

/-- A node that is held by nothing is no root and no dependency of a node in
sight. -/
theorem Counts.unheld {kept rest : List Nat} {node : Nat} {holders : Array Nat}
    (counts : Counts size dependencies roots kept rest holders) (below : node < size)
    (zero : holders.getD node 0 = 0) :
    node ∉ roots ∧ ∀ holder, holder ∈ kept ∨ holder ∈ rest → node ∉ dependencies holder := by
  rw [counts node below, List.count_eq_zero] at zero
  simp only [List.mem_append, List.mem_flatMap, not_or, not_exists, not_and] at zero
  exact ⟨zero.1, fun holder place => place.elim (zero.2.1 holder) (zero.2.2 holder)⟩

/-- A node that is held at all is a root or a dependency of a node in sight. -/
theorem Counts.held {kept rest : List Nat} {node : Nat} {holders : Array Nat}
    (counts : Counts size dependencies roots kept rest holders) (below : node < size)
    (held : holders.getD node 0 ≠ 0) :
    node ∈ roots ∨ ∃ holder, (holder ∈ kept ∨ holder ∈ rest) ∧ node ∈ dependencies holder := by
  rw [counts node below, Ne, List.count_eq_zero, not_not] at held
  simp only [List.mem_append, List.mem_flatMap] at held
  rcases held with root | ⟨holder, place, depends⟩ | ⟨holder, place, depends⟩
  · exact Or.inl root
  · exact Or.inr ⟨holder, Or.inl place, depends⟩
  · exact Or.inr ⟨holder, Or.inr place, depends⟩

theorem foldl_sweepNode {rest : List Nat} {kept : List Nat} {holders : Array Nat}
    (counts : Counts size dependencies roots kept rest holders)
    (bounded : ∀ node ∈ rest, node < size) :
    let result := (rest.foldl (sweepNode dependencies) (kept, holders)).1
    (∃ more, result = more ++ kept ∧ more.reverse.Sublist rest) ∧
      ∀ node ∈ rest, node ∈ result ∨
        (node ∉ roots ∧ ∀ holder ∈ result, node ∉ dependencies holder) := by
  induction rest generalizing kept holders with
  | nil => exact ⟨⟨[], rfl, .slnil⟩, by simp⟩
  | cons node rest ih =>
      have below := bounded node (List.mem_cons_self ..)
      have restBounded : ∀ other ∈ rest, other < size :=
        fun other member => bounded other (List.mem_cons_of_mem _ member)
      rw [List.foldl_cons, sweepNode]
      by_cases zero : holders.getD node 0 = 0
      · rw [if_pos zero]
        obtain ⟨⟨more, shape, sublist⟩, placed⟩ := ih counts.drop restBounded
        obtain ⟨noRoot, unheld⟩ := counts.unheld below zero
        refine ⟨⟨more, shape, sublist.cons _⟩, List.forall_mem_cons.mpr ⟨?_, placed⟩⟩
        refine Or.inr ⟨noRoot, fun holder member => unheld holder ?_⟩
        rw [shape, List.mem_append] at member
        rcases member with later | before
        · exact Or.inr (List.mem_cons_of_mem _ (sublist.subset (List.mem_reverse.mpr later)))
        · exact Or.inl before
      · rw [if_neg zero]
        obtain ⟨⟨more, shape, sublist⟩, placed⟩ := ih counts.keep restBounded
        refine ⟨⟨more ++ [node], by simpa using shape, ?_⟩,
          List.forall_mem_cons.mpr ⟨Or.inl ?_, placed⟩⟩
        · simpa using sublist
        · rw [shape]
          simp

/-- A sweep adds no node that nothing in sight holds. -/
theorem foldl_sweepNode_held {rest : List Nat} {kept : List Nat} {holders : Array Nat}
    (counts : Counts size dependencies roots kept rest holders)
    (bounded : ∀ node ∈ rest, node < size) :
    ∀ node ∈ (rest.foldl (sweepNode dependencies) (kept, holders)).1, node ∈ kept ∨
      node ∈ roots ∨ ∃ holder, (holder ∈ kept ∨ holder ∈ rest) ∧ node ∈ dependencies holder := by
  induction rest generalizing kept holders with
  | nil => exact fun node member => Or.inl member
  | cons first rest ih =>
      have below := bounded first (List.mem_cons_self ..)
      have restBounded : ∀ other ∈ rest, other < size :=
        fun other member => bounded other (List.mem_cons_of_mem _ member)
      intro node member
      rw [List.foldl_cons, sweepNode] at member
      by_cases zero : holders.getD first 0 = 0
      · rw [if_pos zero] at member
        rcases ih counts.drop restBounded node member with
          before | root | ⟨holder, place, depends⟩
        · exact Or.inl before
        · exact Or.inr (Or.inl root)
        · exact Or.inr (Or.inr ⟨holder, place.imp_right (List.mem_cons_of_mem _), depends⟩)
      · rw [if_neg zero] at member
        rcases ih counts.keep restBounded node member with
          before | root | ⟨holder, place, depends⟩
        · rcases List.mem_cons.mp before with rfl | earlier
          · exact Or.inr (counts.held below zero)
          · exact Or.inl earlier
        · exact Or.inr (Or.inl root)
        · refine Or.inr (Or.inr ⟨holder, ?_, depends⟩)
          rcases place with before | later
          · rcases List.mem_cons.mp before with rfl | earlier
            · exact Or.inr (List.mem_cons_self ..)
            · exact Or.inl earlier
          · exact Or.inr (List.mem_cons_of_mem _ later)

/-- A sweep drops no node of a group in which every node is a root or is held from within the
group. -/
theorem foldl_sweepNode_keeps {rest : List Nat} {kept : List Nat} {holders : Array Nat}
    {group : Nat → Prop} (counts : Counts size dependencies roots kept rest holders)
    (bounded : ∀ node ∈ rest, node < size)
    (held : ∀ node, group node → node ∈ roots ∨
      ∃ holder, group holder ∧ node ∈ dependencies holder)
    (present : ∀ node, group node → node ∈ kept ∨ node ∈ rest) :
    ∀ node, group node → node ∈ (rest.foldl (sweepNode dependencies) (kept, holders)).1 := by
  induction rest generalizing kept holders with
  | nil => exact fun node member => (present node member).resolve_right List.not_mem_nil
  | cons first rest ih =>
      have below := bounded first (List.mem_cons_self ..)
      have restBounded : ∀ other ∈ rest, other < size :=
        fun other member => bounded other (List.mem_cons_of_mem _ member)
      rw [List.foldl_cons, sweepNode]
      by_cases zero : holders.getD first 0 = 0
      · have outside : ¬ group first := by
          intro member
          obtain ⟨noRoot, unheld⟩ := counts.unheld below zero
          rcases held first member with root | ⟨holder, inGroup, depends⟩
          · exact noRoot root
          · exact unheld holder (present holder inGroup) depends
        rw [if_pos zero]
        refine ih counts.drop restBounded fun node member => ?_
        refine (present node member).imp_right fun later => (List.mem_cons.mp later).resolve_left ?_
        rintro rfl
        exact outside member
      · rw [if_neg zero]
        refine ih counts.keep restBounded fun node member => ?_
        rcases present node member with before | here
        · exact Or.inl (List.mem_cons_of_mem _ before)
        · rcases List.mem_cons.mp here with rfl | later
          · exact Or.inl (List.mem_cons_self ..)
          · exact Or.inr later

theorem counts_initial (size : Nat) (dependencies : Nat → List Nat) (roots alive : List Nat) :
    Counts size dependencies roots [] alive (counts size (roots ++ alive.flatMap dependencies)) :=
  fun node below => by rw [getD_counts _ _ below]; rfl

theorem sweep_sublist (dependencies : Nat → List Nat) (roots : List Nat)
    (bounded : ∀ node ∈ alive, node < size) :
    (sweep size dependencies roots alive).Sublist alive := by
  obtain ⟨⟨more, shape, sublist⟩, -⟩ :=
    foldl_sweepNode (counts_initial size dependencies roots alive) bounded
  rw [sweep, shape, List.append_nil]
  exact sublist

theorem sweep_placed (bounded : ∀ node ∈ alive, node < size) :
    ∀ node ∈ alive, node ∈ sweep size dependencies roots alive ∨
      (node ∉ roots ∧
        ∀ holder ∈ sweep size dependencies roots alive, node ∉ dependencies holder) := by
  obtain ⟨-, placed⟩ := foldl_sweepNode (counts_initial size dependencies roots alive) bounded
  simpa only [sweep, List.mem_reverse] using placed

theorem sweep_held (bounded : ∀ node ∈ alive, node < size) :
    ∀ node ∈ sweep size dependencies roots alive, node ∈ roots ∨
      ∃ holder ∈ alive, node ∈ dependencies holder := by
  intro node member
  rw [sweep, List.mem_reverse] at member
  simpa using foldl_sweepNode_held (counts_initial size dependencies roots alive) bounded node
    member

theorem sweep_keeps {group : Nat → Prop} (bounded : ∀ node ∈ alive, node < size)
    (held : ∀ node, group node → node ∈ roots ∨
      ∃ holder, group holder ∧ node ∈ dependencies holder)
    (present : ∀ node, group node → node ∈ alive) :
    ∀ node, group node → node ∈ sweep size dependencies roots alive := by
  intro node member
  rw [sweep, List.mem_reverse]
  exact foldl_sweepNode_keeps (counts_initial size dependencies roots alive) bounded held
    (fun node member => Or.inr (present node member)) node member

theorem settle_sublist (bounded : ∀ node ∈ alive, node < size) :
    (settle size dependencies roots alive).Sublist alive := by
  fun_induction settle size dependencies roots alive with
  | case1 alive kept fewer ih =>
      have sublist := sweep_sublist dependencies roots bounded
      exact (ih fun node member => bounded node (sublist.subset member)).trans sublist
  | case2 alive kept all => exact .refl _

/-- Each node stays unless it is no root and no node that stays depends on it. -/
theorem settle_placed (bounded : ∀ node ∈ alive, node < size) :
    ∀ node ∈ alive, node ∈ settle size dependencies roots alive ∨
      (node ∉ roots ∧
        ∀ holder ∈ settle size dependencies roots alive, node ∉ dependencies holder) := by
  fun_induction settle size dependencies roots alive with
  | case1 alive kept fewer ih =>
      have sublist := sweep_sublist dependencies roots bounded
      have keptBounded : ∀ node ∈ kept, node < size :=
        fun node member => bounded node (sublist.subset member)
      intro node member
      rcases sweep_placed bounded node member with stays | ⟨noRoot, unheld⟩
      · exact ih keptBounded node stays
      · exact Or.inr ⟨noRoot, fun holder stays =>
          unheld holder ((settle_sublist keptBounded).subset stays)⟩
  | case2 alive kept all => exact fun node member => Or.inl member

/-- Each node that stays is a root or a dependency of a node that stays. -/
theorem settle_held (bounded : ∀ node ∈ alive, node < size) :
    ∀ node ∈ settle size dependencies roots alive, node ∈ roots ∨
      ∃ holder ∈ settle size dependencies roots alive, node ∈ dependencies holder := by
  fun_induction settle size dependencies roots alive with
  | case1 alive kept fewer ih =>
      have sublist := sweep_sublist dependencies roots bounded
      exact ih fun node member => bounded node (sublist.subset member)
  | case2 alive kept all =>
      have sublist := sweep_sublist dependencies roots bounded
      have same := sublist.eq_of_length (Nat.le_antisymm sublist.length_le (Nat.not_lt.mp all))
      intro node member
      exact sweep_held bounded node (same.symm ▸ member)

/-- A group in which every node is a root or is held from within the group stays. -/
theorem settle_keeps {group : Nat → Prop} (bounded : ∀ node ∈ alive, node < size)
    (held : ∀ node, group node → node ∈ roots ∨
      ∃ holder, group holder ∧ node ∈ dependencies holder)
    (present : ∀ node, group node → node ∈ alive) :
    ∀ node, group node → node ∈ settle size dependencies roots alive := by
  fun_induction settle size dependencies roots alive with
  | case1 alive kept fewer ih =>
      have sublist := sweep_sublist dependencies roots bounded
      exact ih (fun node member => bounded node (sublist.subset member))
        (sweep_keeps bounded held present)
  | case2 alive kept all => exact present

/-- Nothing goes where every node is held already. -/
theorem settle_eq_self (nodup : alive.Nodup) (bounded : ∀ node ∈ alive, node < size)
    (held : ∀ node ∈ alive, node ∈ roots ∨ ∃ holder ∈ alive, node ∈ dependencies holder) :
    settle size dependencies roots alive = alive := by
  have all : alive ⊆ settle size dependencies roots alive :=
    settle_keeps bounded held fun _ member => member
  exact (settle_sublist bounded).eq_of_length_le (nodup.subperm all).length_le

end Lifetime

theorem Node.prune_true (node : Node) : node.prune (fun _ => true) = node := by
  simp [Node.prune]

theorem Store.mem_values {α : Type} {store : Store α} {value : α} :
    value ∈ store.values ↔ ∃ id, store.get? id = some value := by
  simp only [Store.get?, Option.join_eq_some_iff, Store.values, List.mem_filterMap,
    Array.mem_toList_iff, Array.mem_iff_getElem?]
  constructor
  · rintro ⟨entry, ⟨id, found⟩, rfl⟩
    exact ⟨id, found⟩
  · rintro ⟨id, found⟩
    exact ⟨some value, ⟨id, found⟩, rfl⟩

namespace Network

variable {network : Network} {held : List NodeId}

theorem survivors_sublist (network : Network) (held : List NodeId) :
    (network.survivors held).Sublist network.nodes.ids :=
  Lifetime.settle_sublist network.lt_nextId_of_mem_ids

/-- What stays alive is pruned of back references to what does not, and nothing else
changes. -/
theorem node?_release (network : Network) (held : List NodeId) :
    ∃ stays : NodeId → Bool,
      (∀ id, network.Alive id → (stays id ↔ id ∈ network.survivors held)) ∧
      ∀ id, (network.release held).node? id =
        if id ∈ network.survivors held then (network.node? id).map (Node.prune stays)
        else none := by
  rw [release]
  have sublist := network.survivors_sublist held
  split
  next allStay =>
    have same := sublist.eq_of_length allStay
    have kept (id : NodeId) (alive : network.Alive id) : id ∈ network.survivors held := by
      rw [same]
      exact mem_ids.mpr alive
    refine ⟨fun _ => true, fun id alive => iff_of_true rfl (kept id alive), fun id => ?_⟩
    cases found : network.node? id with
    | none => simp
    | some node => rw [if_pos (kept id ⟨node, found⟩), Option.map_some, Node.prune_true]
  · have marked (id : NodeId) :
        (marks network.nodes.nextId (network.survivors held)).getD id false = true ↔
          id ∈ network.survivors held := by
      rw [getD_marks, and_iff_right_iff_imp]
      exact fun member => network.lt_nextId_of_mem_ids id (sublist.subset member)
    refine ⟨fun id => (marks network.nodes.nextId (network.survivors held)).getD id false,
      fun id _ => marked id, fun id => ?_⟩
    change ((network.nodes.restrict _).mapValues _).get? id = _
    rw [Store.get?_mapValues, Store.get?_restrict]
    by_cases stays : id ∈ network.survivors held
    · rw [if_pos stays, if_pos ((marked id).mpr stays)]
      rfl
    · rw [if_neg stays, if_neg (mt (marked id).mp stays)]
      rfl

theorem graphs_release (network : Network) (held : List NodeId) :
    (network.release held).graphs = network.graphs := by
  rw [release]
  split <;> rfl

@[simp] theorem graph?_release (network : Network) (held : List NodeId) (id : GraphId) :
    (network.release held).graph? id = network.graph? id :=
  graph?_eq_of_graphs (network.graphs_release held) id

theorem nextId_release (network : Network) (held : List NodeId) :
    (network.release held).nodes.nextId = network.nodes.nextId := by
  rw [release]
  split
  · rfl
  · exact (Store.nextId_mapValues ..).trans (Store.nextId_restrict ..)

theorem alive_release_iff {node : NodeId} :
    (network.release held).Alive node ↔ node ∈ network.survivors held ∧ network.Alive node := by
  obtain ⟨stays, -, nodes⟩ := network.node?_release held
  rw [Alive, nodes, Alive]
  split
  next kept => simp [kept]
  next dropped => simp [dropped]

/-- A node that is left was there before, with further back references at most. -/
theorem exists_former_of_release {id : NodeId} {node : Node}
    (found : (network.release held).node? id = some node) :
    ∃ former stays, network.node? id = some former ∧ node = former.prune stays := by
  obtain ⟨stays, -, nodes⟩ := network.node?_release held
  rw [nodes] at found
  split at found
  · obtain ⟨former, formerly, same⟩ := Option.map_eq_some_iff.mp found
    exact ⟨former, stays, formerly, same.symm⟩
  · cases found

/-- A node that stays is seen as before by a view that does not show back
references. -/
theorem map_release {β : Type} {view : Node → β}
    (keeps : ∀ (node : Node) stays, view (node.prune stays) = view node) {node : NodeId}
    (kept : node ∈ network.survivors held) :
    ((network.release held).node? node).map view = (network.node? node).map view := by
  obtain ⟨stays, -, nodes⟩ := network.node?_release held
  rw [nodes, if_pos kept, Option.map_map]
  exact congrArg (Option.map · _) (funext fun node => keeps node stays)

theorem elim_release {β : Type} {view : Node → β}
    (keeps : ∀ (node : Node) stays, view (node.prune stays) = view node) (otherwise : β)
    {node : NodeId} (kept : node ∈ network.survivors held) :
    ((network.release held).node? node).elim otherwise view =
      (network.node? node).elim otherwise view := by
  obtain ⟨stays, -, nodes⟩ := network.node?_release held
  rw [nodes, if_pos kept, Option.elim_map]
  exact congrArg (Option.elim _ otherwise) (funext fun node => keeps node stays)

/-- A list at a node is seen as pruning leaves it if the node stays, and not at all if it goes. -/
theorem elim_pruned {β : Type} {stays : NodeId → Bool} {after : Network}
    (nodes : ∀ id, after.node? id =
      if id ∈ network.survivors held then (network.node? id).map (Node.prune stays) else none)
    {view : Node → List β} (alter : List β → List β)
    (shows : ∀ node, view (node.prune stays) = alter (view node)) (nothing : alter [] = [])
    (id : NodeId) :
    (after.node? id).elim [] view =
      if id ∈ network.survivors held then alter ((network.node? id).elim [] view) else [] := by
  rw [nodes]
  split
  · cases network.node? id with
    | none => exact nothing.symm
    | some node => exact shows node
  · rfl

/-- What a graph holds stays. -/
theorem mem_survivors_of_held {id : GraphId} {graph : Graph}
    (found : network.graph? id = some graph) {node : NodeId} (member : node ∈ graph.held)
    (alive : network.Alive node) : node ∈ network.survivors held := by
  refine (Lifetime.settle_placed network.lt_nextId_of_mem_ids node
    (mem_ids.mpr alive)).resolve_right fun dropped => dropped.1 ?_
  exact List.mem_append_right _
    (List.mem_flatMap.mpr ⟨.live graph, Store.mem_values.mpr ⟨id, get?_of_graph? found⟩, member⟩)

/-- What a node depends on stays if the node stays. -/
theorem mem_survivors_of_dependency {node dependency : NodeId}
    (stays : node ∈ network.survivors held) (depends : dependency ∈ network.dependencies node)
    (alive : network.Alive dependency) : dependency ∈ network.survivors held :=
  (Lifetime.settle_placed network.lt_nextId_of_mem_ids dependency
    (mem_ids.mpr alive)).resolve_right fun dropped => dropped.2 node stays depends

/-- Every live node is held, by the given ones, by a graph or by a live node. -/
def Kept (network : Network) (held : List NodeId) : Prop :=
  network.survivors held = network.nodes.ids

theorem release_of_kept (kept : network.Kept held) : network.release held = network := by
  rw [release, if_pos (congrArg List.length kept)]

/-- What a release leaves is held by what it leaves. -/
theorem kept_release (network : Network) (held : List NodeId) :
    (network.release held).Kept held := by
  have listed (id : NodeId) :
      id ∈ (network.release held).nodes.ids ↔ id ∈ network.survivors held := by
    rw [mem_ids, alive_release_iff, and_iff_left_iff_imp]
    exact fun kept => mem_ids.mp ((network.survivors_sublist held).subset kept)
  refine Lifetime.settle_eq_self (Store.nodup_ids _) (lt_nextId_of_mem_ids _)
    fun node member => ?_
  rw [graphs_release]
  have kept := (listed node).mp member
  rcases Lifetime.settle_held network.lt_nextId_of_mem_ids node kept with
    root | ⟨holder, stays, depends⟩
  · exact Or.inl root
  · refine Or.inr ⟨holder, (listed holder).mpr stays, ?_⟩
    have same : (network.release held).dependencies holder = network.dependencies holder :=
      elim_release (fun _ _ => rfl) [] stays
    rwa [same]

end Network
end TensorGraph
