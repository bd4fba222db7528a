import Mathlib
import TensorGraph.Proofs.Coherence

/-!
# What an order says

An order that is found lists the live nodes that its roots reach, each once and after all that
it depends on.  It is refused exactly if the roots reach a cycle, and the refusal names a node
of one.  Either answer comes after a bounded number of steps on every network, since each step
but the last looks at a root or at a dependency of a node that is open, or leaves such a node.
-/

namespace TensorGraph

open Relation

namespace DepthFirst

/-- A traversal between two steps: the marks of the elements, the roots and the open elements
that are left to look at, and the elements that were left, the latest first. -/
structure Traversal where
  marked : Array Mark
  roots : List Nat
  stack : List Frame
  left : List Nat

namespace Traversal

variable (dependencies : Nat → List Nat)

/-- One step of a traversal: the outcome if it is at its end, and where it leads
otherwise. -/
def step : Traversal → Except Nat (List Nat) ⊕ Traversal
  | ⟨_, [], [], left⟩ => .inl (.ok left.reverse)
  | ⟨marked, root :: roots, [], left⟩ =>
      if markOf marked root = .unvisited then
        .inr ⟨setMark marked root .visiting, roots, [⟨root, dependencies root⟩], left⟩
      else .inr ⟨marked, roots, [], left⟩
  | ⟨marked, roots, ⟨element, []⟩ :: stack, left⟩ =>
      .inr ⟨setMark marked element .done, roots, stack, element :: left⟩
  | ⟨marked, roots, ⟨element, dependency :: pending⟩ :: stack, left⟩ =>
      if markOf marked dependency = .unvisited then
        .inr ⟨setMark marked dependency .visiting, roots,
          ⟨dependency, dependencies dependency⟩ :: ⟨element, pending⟩ :: stack, left⟩
      else if markOf marked dependency = .visiting then .inl (.error dependency)
      else .inr ⟨marked, roots, ⟨element, pending⟩ :: stack, left⟩

/-- The outcome of a traversal, if it takes no more than the given number of steps. -/
def outcomeWithin (traversal : Traversal) : Nat → Option (Except Nat (List Nat))
  | 0 => none
  | steps + 1 =>
      match traversal.step dependencies with
      | .inl outcome => some outcome
      | .inr next => next.outcomeWithin steps

/-- The elements that may still be entered. -/
def unvisited (marked : Array Mark) : List Nat :=
  (List.range marked.size).filter (markOf marked · = .unvisited)

/-- What a traversal has left to do: to look at each root and at each pending dependency,
to leave each open element, and as much for each element that it may still enter. -/
def work (traversal : Traversal) : Nat :=
  remaining traversal.roots traversal.stack +
    ((unvisited traversal.marked).map fun element => (dependencies element).length + 1).sum

variable {dependencies}

theorem nodup_unvisited (marked : Array Mark) : (unvisited marked).Nodup :=
  List.nodup_range.filter _

theorem mem_unvisited {marked : Array Mark} {element : Nat} :
    element ∈ unvisited marked ↔ markOf marked element = .unvisited := by
  rw [unvisited, List.mem_filter, List.mem_range, decide_eq_true_iff, and_iff_right_iff_imp]
  exact fun new => lt_size_of_markOf (by simp [new])

/-- An element that is entered or left is visited from then on. -/
theorem unvisited_setMark (marked : Array Mark) (element : Nat) (mark : Mark)
    (visited : mark ≠ .unvisited) :
    unvisited (setMark marked element mark) = (unvisited marked).erase element := by
  have size : (setMark marked element mark).size = marked.size := Array.size_setIfInBounds
  rw [(nodup_unvisited marked).erase_eq_filter, unvisited, unvisited, size, List.filter_filter]
  refine List.filter_congr fun other below => ?_
  rw [List.mem_range] at below
  rw [markOf_setMark]
  by_cases here : other = element
  · simp [here, here ▸ below, visited]
  · simp [here]

/-- The elements to be ordered may all be entered at first. -/
theorem unvisited_initialMarks {size : Nat} {elements : List Nat} (nodup : elements.Nodup)
    (below : ∀ element ∈ elements, element < size) :
    (unvisited (initialMarks size elements)).Perm elements := by
  refine (List.perm_ext_iff_of_nodup (nodup_unvisited _) nodup).mpr fun element => ?_
  rw [mem_unvisited]
  exact (Match.initial nodup below).unvisited_iff element

/-- Carrying a traversal to its end is to take one step, and to go on unless it was the
last. -/
theorem run_eq_step (traversal : Traversal) :
    run dependencies traversal.marked traversal.roots traversal.stack traversal.left =
      match traversal.step dependencies with
      | .inl outcome => outcome
      | .inr next => run dependencies next.marked next.roots next.stack next.left := by
  rcases traversal with
    ⟨marked, _ | ⟨root, roots⟩, _ | ⟨⟨element, _ | ⟨dependency, pending⟩⟩, stack⟩, left⟩ <;>
    rw [run, step] <;> split_ifs <;> rfl

/-- Every step but the last does one piece of the work. -/
theorem work_of_step {traversal next : Traversal}
    (stepped : traversal.step dependencies = .inr next) :
    next.work dependencies + 1 ≤ traversal.work dependencies := by
  have entered {marked : Array Mark} {element : Nat}
      (new : markOf marked element = .unvisited) :=
    List.sum_map_erase (fun element => (dependencies element).length + 1) (mem_unvisited.mpr new)
  have visiting (marked : Array Mark) (element : Nat) :
      unvisited (setMark marked element .visiting) = (unvisited marked).erase element :=
    unvisited_setMark marked element .visiting nofun
  rw [step.eq_def] at stepped
  split at stepped
  next => cases stepped
  next marked root roots left =>
    split at stepped <;> obtain rfl := Sum.inr.inj stepped
    next new =>
      have total := entered new
      simp only [work, visiting, remaining, List.foldr_cons, List.foldr_nil,
        List.length_cons] at total ⊢
      omega
    next visited =>
      simp only [work, remaining, List.foldr_nil, List.length_cons]
      omega
  next marked roots element stack left =>
    obtain rfl := Sum.inr.inj stepped
    have fewer : ((unvisited (setMark marked element .done)).map fun element =>
        (dependencies element).length + 1).sum ≤
          ((unvisited marked).map fun element => (dependencies element).length + 1).sum := by
      rw [unvisited_setMark marked element .done nofun]
      exact (List.erase_sublist.map _).sum_le_sum fun _ _ => Nat.zero_le _
    simp only [work, remaining, List.foldr_cons, List.length_nil] at fewer ⊢
    omega
  next marked roots element dependency pending stack left =>
    split at stepped
    next new =>
      obtain rfl := Sum.inr.inj stepped
      have total := entered new
      simp only [work, visiting, remaining, List.foldr_cons, List.length_cons] at total ⊢
      omega
    next visited =>
      split at stepped
      · cases stepped
      · obtain rfl := Sum.inr.inj stepped
        simp only [work, remaining, List.foldr_cons, List.length_cons]
        omega

/-- A traversal ends once its work is done. -/
theorem outcomeWithin_eq_run {steps : Nat} {traversal : Traversal}
    (enough : traversal.work dependencies < steps) :
    traversal.outcomeWithin dependencies steps =
      some (run dependencies traversal.marked traversal.roots traversal.stack
        traversal.left) := by
  induction steps generalizing traversal with
  | zero => cases enough
  | succ steps ih =>
      rw [outcomeWithin, run_eq_step]
      cases stepped : traversal.step dependencies with
      | inl outcome => rfl
      | inr next =>
          have fewer := work_of_step stepped
          exact ih (by omega)

end Traversal

end DepthFirst

namespace Network

variable {network : Network} {roots nodes : List NodeId}

/-- The live nodes that the roots reach are listed, each once and after all live nodes that it
depends on.  Where roots and dependencies are alive, these are all that the roots reach and all
that a node depends on. -/
theorem order_lists_reach (ok : network.order roots = .ok nodes) :
    nodes.Nodup ∧
    (∀ id, id ∈ nodes ↔ network.Alive id ∧ network.Reaches roots id) ∧
    (∀ earlier id later, nodes = earlier ++ id :: later →
      ∀ dependency ∈ network.dependencies id, network.Alive dependency →
        dependency ∈ earlier) ∧
    ((∀ id, ∀ dependency ∈ network.dependencies id, network.Alive dependency) →
      (∀ root ∈ roots, network.Alive root) → network.Ordered roots nodes) := by
  obtain ⟨nodup, -, members⟩ := of_order ok
  exact ⟨nodup, members, fun _ _ _ split _ depends alive =>
    mem_earlier_of_order ok split depends alive,
    fun closed alive => ordered_of_order closed alive ok⟩

/-- The outcome of an order, if it takes no more than the given number of steps. -/
def orderWithin (network : Network) (roots : List NodeId) (steps : Nat) :
    Option (Except GraphError (List NodeId)) :=
  let traversal : DepthFirst.Traversal :=
    ⟨DepthFirst.initialMarks network.nodes.nextId network.nodes.ids, roots, [], []⟩
  (traversal.outcomeWithin network.dependencies steps).map fun
    | .ok nodes => .ok nodes
    | .error node => .error (.cycle (network.label node))

theorem orderWithin_eq_order {steps : Nat}
    (enough : roots.length +
      (network.nodes.ids.map fun id => (network.dependencies id).length + 1).sum < steps) :
    network.orderWithin roots steps = some (network.order roots) := by
  have initially := (DepthFirst.Traversal.unvisited_initialMarks
    (Store.nodup_ids network.nodes) network.lt_nextId_of_mem_ids).map fun id =>
      (network.dependencies id).length + 1
  rw [← initially.sum_eq] at enough
  rw [orderWithin, DepthFirst.Traversal.outcomeWithin_eq_run enough, Option.map_some]
  cases outcome : DepthFirst.run network.dependencies
    (DepthFirst.initialMarks network.nodes.nextId network.nodes.ids) roots [] [] <;>
    rw [Network.order, DepthFirst.order, outcome]

/-- An order is refused exactly if a cycle is within reach. -/
theorem order_refused_iff :
    (∃ label, network.order roots = .error (.cycle label)) ↔
      ∃ id, network.Reaches roots id ∧ TransGen network.DependsOn id id := by
  rcases network.order_answers roots with ⟨nodes, ok, -, -, members⟩ | ⟨id, refused, onCycle⟩
  · refine iff_of_false ?_ ?_
    · rintro ⟨label, refused⟩
      rw [ok] at refused
      cases refused
    · rintro ⟨id, reached, cycle⟩
      exact acyclic_of_order ok ((members id).mpr ⟨alive_of_cycle cycle, reached⟩) cycle
  · exact iff_of_true ⟨_, refused⟩ ⟨id, onCycle⟩

/-- The answer comes after as many steps as there are roots, live nodes and dependencies of
these, and one more; it is a refusal exactly if the roots reach a cycle, and then it names a
node of one that they reach. -/
theorem order_ends_and_finds_cycles (network : Network) (roots : List NodeId) :
    (∀ steps, roots.length +
        (network.nodes.ids.map fun id => (network.dependencies id).length + 1).sum < steps →
      network.orderWithin roots steps = some (network.order roots)) ∧
    ((∃ label, network.order roots = .error (.cycle label)) ↔
      ∃ id, network.Reaches roots id ∧ TransGen network.DependsOn id id) ∧
    ∀ error, network.order roots = .error error → ∃ id, error = .cycle (network.label id) ∧
      network.Reaches roots id ∧ TransGen network.DependsOn id id := by
  refine ⟨fun _ => orderWithin_eq_order, order_refused_iff, fun error refused => ?_⟩
  rcases network.order_answers roots with ⟨nodes, ok, -⟩ | ⟨id, answered, onCycle⟩
  · rw [ok] at refused
    cases refused
  · exact ⟨id, (Except.error.inj (answered.symm.trans refused)).symm, onCycle⟩

end Network

namespace Session

/-- Two rectifiers of a parameter, one ordered after the other, with a concatenation that reads
both of them and the later one twice, and a result. -/
def braided : Session :=
  empty.run [
    .create (.parameter { elementType := .f32, shape := .fixed [2, 3] }) [] none (.text "feed"),
    .create .relu [⟨1, 0⟩] none (.text "late"),
    .create .relu [⟨1, 0⟩] none (.text "early"),
    .addControlDependency 2 3,
    .create (.concat 0) [⟨2, 0⟩, ⟨3, 0⟩, ⟨2, 0⟩] none (.text "joint"),
    .create .result [⟨4, 0⟩] none (.text "outcome")]

theorem braided_reachable : braided.Reachable :=
  ⟨_, rfl⟩

theorem listing_braided :
    braided.network.order [5, 4, 5, 3] = .ok [1, 3, 2, 4, 5] ∧
    braided.network.dependencies 2 = [1, 3] ∧ braided.network.nodes.ids = [5, 4, 3, 2, 1] := by
  cbv

theorem order_braided :
    braided.network.order [5, 4, 5, 3] = .ok [1, 3, 2, 4, 5] ∧
    braided.network.Reaches [5, 4, 5, 3] 1 ∧ 3 ∈ [1, 3] ∧
    braided.network.Ordered [5, 4, 5, 3] [1, 3, 2, 4, 5] := by
  obtain ⟨ok, listed, -⟩ := listing_braided
  obtain ⟨-, members, before, ordered⟩ := Network.order_lists_reach ok
  have depends : 3 ∈ braided.network.dependencies 2 := by
    rw [listed]
    decide
  have alive : braided.network.Alive 3 := ((members 3).mp (by decide)).1
  refine ⟨ok, ((members 1).mp (by decide)).2, before [1, 3] 2 [4, 5] rfl 3 depends alive, ?_⟩
  have listed : ∀ root ∈ [5, 4, 5, 3], root ∈ [1, 3, 2, 4, 5] := by decide
  exact ordered braided_reachable.coherent.dependencies fun root member =>
    ((members root).mp (listed root member)).1

/-- A rectifier and one that reads it, with the first ordered after the second; another
rectifier reads itself. -/
def knotted : Session :=
  empty.run [
    .create (.parameter { elementType := .f32, shape := .fixed [2, 3] }) [] none (.text "feed"),
    .create .relu [⟨1, 0⟩] none (.text "first"),
    .create .relu [⟨2, 0⟩] none (.text "second"),
    .addControlDependency 2 3,
    .create .relu [⟨3, 0⟩] none (.text "loop"),
    .setSource ⟨4, 0⟩ ⟨4, 0⟩]

theorem refusals_knotted :
    knotted.network.order [1, 3] = .error (.cycle ⟨3, "Relu_3", "Relu"⟩) ∧
    knotted.network.order [4] = .error (.cycle ⟨4, "Relu_4", "Relu"⟩) ∧
    ([1, 3] : List NodeId).length + (knotted.network.nodes.ids.map fun id =>
      (knotted.network.dependencies id).length + 1).sum < 12 ∧
    knotted.network.nodes.ids = [4, 3, 2, 1] := by
  cbv
  exact ⟨rfl, rfl, trivial⟩

theorem cycles_knotted :
    (∃ id, knotted.network.Reaches [1, 3] id ∧
      TransGen knotted.network.DependsOn id id) ∧
    (∃ id, knotted.network.Reaches [4] id ∧ TransGen knotted.network.DependsOn id id) ∧
    knotted.network.orderWithin [1, 3] 12 = some (knotted.network.order [1, 3]) := by
  obtain ⟨ends, finds, -⟩ := knotted.network.order_ends_and_finds_cycles [1, 3]
  obtain ⟨-, findsLoop, -⟩ := knotted.network.order_ends_and_finds_cycles [4]
  obtain ⟨refused, refusedLoop, below, -⟩ := refusals_knotted
  exact ⟨finds.mp ⟨_, refused⟩, findsLoop.mp ⟨_, refusedLoop⟩, ends 12 below⟩

end Session
end TensorGraph
