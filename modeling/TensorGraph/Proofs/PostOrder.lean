import Mathlib
import TensorGraph.Order.PostOrder
import TensorGraph.Proofs.Ordering

/-!
# The traversal as a recursive visit

The traversal keeps a stack of open elements, and a recursive visit has none.  Each open
element stands for a visit that was begun: what is pending in it is still to be visited below
the elements under it, then the element is left, and the visit under it goes on.  A traversal
that is resumed anywhere has the outcome of the visits that its stack stands for, so one that
begins with the roots has the outcome of visiting them.
-/

namespace TensorGraph

namespace PostOrder

variable {dependencies : Nat → List Nat}

section Inversion

variable {path left elements : List Nat} {element : Nat} {outcome : Except Nat (List Nat)}

theorem visits_iff_of_known (known : element ∈ left) :
    Visits dependencies path left element outcome ↔ outcome = .ok left := by
  constructor
  · intro visits
    cases visits with
    | passed => rfl
    | metAgain new | completed new | failed new => exact absurd known new
  · rintro rfl
    exact .passed known

theorem visits_iff_of_open (new : element ∉ left) (isOpen : element ∈ path) :
    Visits dependencies path left element outcome ↔ outcome = .error element := by
  constructor
  · intro visits
    cases visits with
    | passed known => exact absurd known new
    | metAgain => rfl
    | completed _ closed | failed _ closed => exact absurd isOpen closed
  · rintro rfl
    exact .metAgain new isOpen

/-- To visit an element that is entered is to visit what it depends on, and then to leave it. -/
theorem visits_iff_of_closed (new : element ∉ left) (closed : element ∉ path) :
    Visits dependencies path left element outcome ↔
      ∃ inner, VisitsAll dependencies (element :: path) left (dependencies element) inner ∧
        outcome = inner.map (· ++ [element]) := by
  constructor
  · intro visits
    cases visits with
    | passed known => exact absurd known new
    | metAgain _ isOpen => exact absurd isOpen closed
    | completed _ _ below | failed _ _ below => exact ⟨_, below, rfl⟩
  · rintro ⟨inner, below, rfl⟩
    cases inner with
    | ok after => exact .completed new closed below
    | error again => exact .failed new closed below

/-- To visit elements one after the other is to visit the first and to go on unless that was
the end. -/
theorem visitsAll_cons_iff :
    VisitsAll dependencies path left (element :: elements) outcome ↔
      ∃ inner, Visits dependencies path left element inner ∧
        match inner with
        | .ok between => VisitsAll dependencies path between elements outcome
        | .error again => outcome = .error again := by
  constructor
  · intro visits
    cases visits with
    | cons now later => exact ⟨_, now, later⟩
    | stop now => exact ⟨_, now, rfl⟩
  · rintro ⟨inner, now, goesOn⟩
    cases inner with
    | ok between => exact .cons now goesOn
    | error again =>
        obtain rfl : outcome = .error again := goesOn
        exact .stop now

end Inversion

mutual

/-- The visit of an element has one outcome. -/
theorem Visits.unique {path left : List Nat} {element : Nat}
    {outcome other : Except Nat (List Nat)}
    (first : Visits dependencies path left element outcome)
    (second : Visits dependencies path left element other) : outcome = other := by
  match first with
  | .passed known => exact ((visits_iff_of_known known).mp second).symm
  | .metAgain new isOpen => exact ((visits_iff_of_open new isOpen).mp second).symm
  | .completed new closed below | .failed new closed below =>
      obtain ⟨inner, otherBelow, rfl⟩ := (visits_iff_of_closed new closed).mp second
      rw [← VisitsAll.unique below otherBelow]
      rfl

/-- Visiting elements one after the other has one outcome. -/
theorem VisitsAll.unique {path left elements : List Nat}
    {outcome other : Except Nat (List Nat)}
    (first : VisitsAll dependencies path left elements outcome)
    (second : VisitsAll dependencies path left elements other) : outcome = other := by
  match first with
  | .nil =>
      cases second
      rfl
  | .cons now later =>
      obtain ⟨inner, otherNow, goesOn⟩ := visitsAll_cons_iff.mp second
      obtain rfl := Visits.unique now otherNow
      exact VisitsAll.unique later goesOn
  | .stop now =>
      obtain ⟨inner, otherNow, goesOn⟩ := visitsAll_cons_iff.mp second
      obtain rfl := Visits.unique now otherNow
      exact goesOn.symm

end

end PostOrder

namespace DepthFirst

open PostOrder

/-- The open elements, the latest first, stand for visits that were begun: what is pending in
the latest is visited next, then it is left and the visit under it goes on, and the roots come
at the end.  An element that is met again ends all of them. -/
def Resumes (dependencies : Nat → List Nat) (roots : List Nat) :
    List Frame → List Nat → Except Nat (List Nat) → Prop
  | [], left, outcome => VisitsAll dependencies [] left roots outcome
  | frame :: below, left, outcome =>
      ∃ inner, VisitsAll dependencies (frame.element :: below.map Frame.element) left
          frame.pending inner ∧
        match inner with
        | .ok after => Resumes dependencies roots below (after ++ [frame.element]) outcome
        | .error again => outcome = .error again

variable {elements : List Nat} {dependencies : Nat → List Nat}
variable {start unvisited roots left : List Nat} {stack : List Frame}
variable {element : Nat} {pending : List Nat} {outcome : Except Nat (List Nat)}

namespace Resumes

/-- The latest open element has its visit, which ends all visits or is gone on from. -/
theorem visits_latest {latest : Nat} (new : latest ∉ left)
    (closed : latest ∉ stack.map Frame.element)
    (resumes : Resumes dependencies roots (⟨latest, dependencies latest⟩ :: stack) left outcome) :
    (∃ after, Visits dependencies (stack.map Frame.element) left latest (.ok after) ∧
      Resumes dependencies roots stack after outcome) ∨
    ∃ again, Visits dependencies (stack.map Frame.element) left latest (.error again) ∧
      outcome = .error again := by
  obtain ⟨inner, below, goesOn⟩ := resumes
  have visits := (visits_iff_of_closed new closed).mpr ⟨inner, below, rfl⟩
  cases inner with
  | ok after => exact Or.inl ⟨_, visits, goesOn⟩
  | error again => exact Or.inr ⟨again, visits, goesOn⟩

/-- A visit of a root that was entered, and of the roots after it, is one of all of them. -/
theorem of_root {root : Nat} (new : root ∉ left)
    (resumes : Resumes dependencies roots [⟨root, dependencies root⟩] left outcome) :
    Resumes dependencies (root :: roots) [] left outcome := by
  rcases resumes.visits_latest new List.not_mem_nil with
    ⟨after, visits, goesOn⟩ | ⟨again, visits, rfl⟩
  · exact .cons visits goesOn
  · exact .stop visits

/-- A visit of a pending dependency and of the further ones is one of all that is pending. -/
theorem cons {dependency : Nat} {after : List Nat}
    (visits : Visits dependencies (element :: stack.map Frame.element) left dependency (.ok after))
    (resumes : Resumes dependencies roots (⟨element, pending⟩ :: stack) after outcome) :
    Resumes dependencies roots (⟨element, dependency :: pending⟩ :: stack) left outcome := by
  obtain ⟨inner, further, goesOn⟩ := resumes
  exact ⟨inner, .cons visits further, goesOn⟩

/-- A dependency that ends the visit is the outcome of all visits that were begun. -/
theorem stop {dependency again : Nat}
    (visits : Visits dependencies (element :: stack.map Frame.element) left dependency
      (.error again)) :
    Resumes dependencies roots (⟨element, dependency :: pending⟩ :: stack) left (.error again) :=
  ⟨.error again, .stop visits, rfl⟩

/-- A dependency that was entered is visited before the further ones. -/
theorem of_dependency {dependency : Nat} (new : dependency ∉ left)
    (closed : dependency ∉ element :: stack.map Frame.element)
    (resumes : Resumes dependencies roots
      (⟨dependency, dependencies dependency⟩ :: ⟨element, pending⟩ :: stack) left outcome) :
    Resumes dependencies roots (⟨element, dependency :: pending⟩ :: stack) left outcome := by
  have apart : dependency ∉ (⟨element, pending⟩ :: stack).map Frame.element := closed
  rcases resumes.visits_latest new apart with ⟨after, visits, goesOn⟩ | ⟨again, visits, rfl⟩
  · exact .cons visits goesOn
  · exact .stop visits

end Resumes

namespace Underway

theorem apart_nodup (underway : Underway elements dependencies start unvisited roots stack left)
    (nodup : elements.Nodup) : (unvisited ++ (stack.map Frame.element ++ left)).Nodup :=
  underway.apart.nodup_iff.mpr nodup

theorem not_mem_of_unvisited
    (underway : Underway elements dependencies start unvisited roots stack left)
    (nodup : elements.Nodup) (new : element ∈ unvisited) :
    element ∉ stack.map Frame.element ∧ element ∉ left := by
  have apart := (List.nodup_append.mp (underway.apart_nodup nodup)).2.2 element new
  exact ⟨fun isOpen => apart element (List.mem_append_left _ isOpen) rfl,
    fun before => apart element (List.mem_append_right _ before) rfl⟩

theorem not_left_of_open
    (underway : Underway elements dependencies start unvisited roots stack left)
    (nodup : elements.Nodup) (isOpen : element ∈ stack.map Frame.element) : element ∉ left := by
  have inner := (List.nodup_append.mp (underway.apart_nodup nodup)).2.1
  exact fun before => (List.nodup_append.mp inner).2.2 element isOpen element before rfl

/-- A pending dependency is among the elements if these contain what they depend on. -/
theorem mem_elements_of_pending {dependency : Nat}
    (underway : Underway elements dependencies start unvisited roots
      (⟨element, dependency :: pending⟩ :: stack) left)
    (closed : ∀ element ∈ elements, dependencies element ⊆ elements) : dependency ∈ elements :=
  closed element (underway.mem_elements (Or.inl (List.mem_cons_self ..)))
    (underway.pending _ (List.mem_cons_self ..) (List.mem_cons_self ..))

/-- A traversal has the outcome of the visits that its stack stands for. -/
theorem resumes (underway : Underway elements dependencies start unvisited roots stack left)
    (nodup : elements.Nodup) (closed : ∀ element ∈ elements, dependencies element ⊆ elements)
    (inside : roots ⊆ elements) :
    Resumes dependencies roots stack left.reverse
      (traverse dependencies unvisited roots stack left) := by
  fun_induction traverse dependencies unvisited roots stack left with
  | case1 unvisited left => exact .nil
  | case2 unvisited left root roots new ih =>
      obtain ⟨-, notLeft⟩ := underway.not_mem_of_unvisited nodup new
      exact .of_root (by simpa using notLeft)
        (ih (underway.enter_root new) fun _ member => inside (List.mem_cons_of_mem _ member))
  | case3 unvisited left root roots visited ih =>
      have before : root ∈ left := by
        simpa using underway.of_mem_elements (inside (List.mem_cons_self ..)) visited
      exact VisitsAll.cons (.passed (by simpa using before))
        (ih (underway.pass_root visited) fun _ member => inside (List.mem_cons_of_mem _ member))
  | case4 unvisited roots left element stack ih =>
      have goesOn := ih underway.leave inside
      rw [List.reverse_cons] at goesOn
      exact ⟨.ok left.reverse, .nil, goesOn⟩
  | case5 unvisited roots left element dependency pending stack new ih =>
      obtain ⟨notOpen, notLeft⟩ := underway.not_mem_of_unvisited nodup new
      exact .of_dependency (by simpa using notLeft) notOpen (ih (underway.enter new) inside)
  | case6 unvisited roots left element dependency pending stack visited isOpen =>
      have known : dependency ∈ element :: stack.map Frame.element := by simpa using isOpen
      have notLeft := underway.not_left_of_open nodup known
      exact .stop (.metAgain (by simpa using notLeft) known)
  | case7 unvisited roots left element dependency pending stack visited notOpen ih =>
      have before : dependency ∈ left := by
        have member := underway.mem_elements_of_pending closed
        refine (underway.of_mem_elements member visited).resolve_left fun isOpen => notOpen ?_
        simpa using isOpen
      exact .cons (.passed (by simpa using before)) (ih (underway.pass visited notOpen) inside)

end Underway

/-- The order of elements among which the roots and all dependencies are is the outcome of
visiting the roots. -/
theorem orders_traverseFrom (nodup : elements.Nodup)
    (closed : ∀ element ∈ elements, dependencies element ⊆ elements) (inside : roots ⊆ elements) :
    Orders dependencies roots (traverseFrom elements dependencies roots) :=
  (Underway.initial elements dependencies roots).resumes nodup closed inside

end DepthFirst

/-- A label tells which node it is of. -/
theorem Network.label_id (network : Network) (id : NodeId) : (network.label id).id = id := by
  rw [Network.label]
  cases network.node? id <;> rfl

namespace Session

/-- The roots of a reachable session have one recursive visit, and the order is its outcome: the
same nodes in the same order, or a refusal that names the node that the visit met again. -/
theorem Reachable.order_is_recursive_visit {session : Session} (reachable : session.Reachable)
    {roots : List NodeId} (alive : ∀ root ∈ roots, session.network.Alive root) :
    ∃ outcome, PostOrder.Orders session.network.dependencies roots outcome ∧
      (∀ other, PostOrder.Orders session.network.dependencies roots other → other = outcome) ∧
      session.network.order roots =
        outcome.mapError fun id => .cycle (session.network.label id) := by
  have visits : PostOrder.Orders session.network.dependencies roots
      (DepthFirst.traverseFrom session.network.nodes.ids session.network.dependencies roots) := by
    refine DepthFirst.orders_traverseFrom session.network.nodes.nodup_ids ?_ ?_
    · exact fun id _ dependency depends =>
        Network.mem_ids.mpr (reachable.coherent.dependencies id dependency depends)
    · exact fun root member => Network.mem_ids.mpr (alive root member)
  refine ⟨_, visits, fun _ other => other.unique visits, ?_⟩
  rw [Network.order_eq]
  cases DepthFirst.traverseFrom session.network.nodes.ids session.network.dependencies roots <;> rfl

/-- A visit that reads one node twice lists it once, and one that comes back to a node that is
still open names that node. -/
theorem visits_braided_knotted :
    PostOrder.Orders braided.network.dependencies [5, 4, 5, 3] (.ok [1, 3, 2, 4, 5]) ∧
    PostOrder.Orders knotted.network.dependencies [1, 3] (.error 3) := by
  obtain ⟨ok, -, ids⟩ := listing_braided
  obtain ⟨refused, -, -, idsKnotted⟩ := refusals_knotted
  have listed : ∀ root ∈ [5, 4, 5, 3], braided.network.Alive root := by
    simp only [← Network.mem_ids, ids]
    decide
  have known : ∀ root ∈ [1, 3], knotted.network.Alive root := by
    simp only [← Network.mem_ids, idsKnotted]
    decide
  have reachable : knotted.Reachable := ⟨_, rfl⟩
  obtain ⟨outcome, visits, -, same⟩ := braided_reachable.order_is_recursive_visit listed
  obtain ⟨other, ends, -, alike⟩ := reachable.order_is_recursive_visit known
  constructor
  · rw [ok] at same
    cases outcome with
    | ok nodes => rwa [Except.ok.inj same]
    | error id => cases same
  · rw [refused] at alike
    cases other with
    | ok nodes => cases alike
    | error id =>
        have named := GraphError.cycle.inj (Except.error.inj alike)
        rwa [← Network.label_id knotted.network id, ← named] at ends

end Session
end TensorGraph
