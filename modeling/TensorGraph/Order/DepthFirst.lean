import TensorGraph.Network.Marks

/-!
# Depth-first order

The elements that can be reached from some roots along a dependency relation,
each after all of its dependencies.  The traversal keeps the elements that it
has entered and not yet left on a stack, each with the dependencies that it has
not looked at, and marks them; meeting such an element again closes a cycle.
Every step either enters an element for the first time or leaves less to look at,
so the traversal ends on every relation, cyclic ones included.
-/

namespace TensorGraph.DepthFirst

/-- What a traversal has done with an element. -/
inductive Mark where
  | unvisited
  /-- The element was entered and not yet left. -/
  | visiting
  | done
  deriving DecidableEq, Inhabited

/-- An element that was entered and not yet left, and its dependencies that
were not looked at. -/
structure Frame where
  element : Nat
  pending : List Nat

/-- What is left to look at: the roots, and the pending dependencies of the open
elements, each of which is still to be left as well. -/
def remaining (roots : List Nat) (stack : List Frame) : Nat :=
  stack.foldr (fun frame later => frame.pending.length + 1 + later) roots.length

/-- The mark of an element; one that is not to be ordered counts as done. -/
def markOf (marked : Array Mark) (element : Nat) : Mark :=
  marked.getD element .done

def setMark (marked : Array Mark) (element : Nat) (mark : Mark) : Array Mark :=
  marked.setIfInBounds element mark

theorem markOf_setMark (marked : Array Mark) (element other : Nat) (mark : Mark) :
    markOf (setMark marked element mark) other =
      if other = element ∧ other < marked.size then mark else markOf marked other := by
  rw [markOf, setMark, Array.getD_eq_getD_getElem?, Array.getElem?_setIfInBounds, markOf,
    Array.getD_eq_getD_getElem?]
  by_cases here : element = other
  · subst here
    by_cases below : element < marked.size <;> simp [below]
  · simp [here, Ne.symm here]

theorem lt_size_of_markOf {marked : Array Mark} {element : Nat}
    (known : markOf marked element ≠ .done) : element < marked.size := by
  by_cases below : element < marked.size
  · exact below
  · exact (known (by simp [markOf, Array.getD, below])).elim

theorem count_setMark_of_unvisited {marked : Array Mark} {element : Nat} {mark : Mark}
    (new : markOf marked element = .unvisited) (visited : mark ≠ .unvisited) :
    (setMark marked element mark).count .unvisited < marked.count .unvisited := by
  have below : element < marked.size := lt_size_of_markOf (by simp [new])
  have here : marked[element] = .unvisited := by
    simpa [markOf, Array.getD, below] using new
  have positive : 0 < marked.count .unvisited :=
    Array.count_pos_iff.mpr (here ▸ Array.getElem_mem below)
  have fewer : marked.count .unvisited - 1 < marked.count .unvisited :=
    Nat.sub_lt positive Nat.one_pos
  rw [setMark, Array.setIfInBounds, dif_pos below, Array.count_set below, here]
  simpa [visited] using fewer

theorem count_setMark_le (marked : Array Mark) (element : Nat) {mark : Mark}
    (visited : mark ≠ .unvisited) :
    (setMark marked element mark).count .unvisited ≤ marked.count .unvisited := by
  rw [setMark, Array.setIfInBounds]
  split
  next below =>
    rw [Array.count_set below]
    simp [visited]
  · exact Nat.le_refl _

/-- Carry a traversal to its end.  The elements left are collected in reverse; an
element that is met again before it was left is the answer instead. -/
def run (dependencies : Nat → List Nat) (marked : Array Mark) (roots : List Nat)
    (stack : List Frame) (left : List Nat) : Except Nat (List Nat) :=
  match stack with
  | [] =>
      match roots with
      | [] => .ok left.reverse
      | root :: roots =>
          if markOf marked root = .unvisited then
            run dependencies (setMark marked root .visiting) roots [⟨root, dependencies root⟩] left
          else run dependencies marked roots [] left
  | ⟨element, []⟩ :: stack =>
      run dependencies (setMark marked element .done) roots stack (element :: left)
  | ⟨element, dependency :: pending⟩ :: stack =>
      if markOf marked dependency = .unvisited then
        run dependencies (setMark marked dependency .visiting) roots
          (⟨dependency, dependencies dependency⟩ :: ⟨element, pending⟩ :: stack) left
      else if markOf marked dependency = .visiting then .error dependency
      else run dependencies marked roots (⟨element, pending⟩ :: stack) left
termination_by (marked.count .unvisited, remaining roots stack)
decreasing_by
  · exact Prod.Lex.left _ _ (count_setMark_of_unvisited ‹_› nofun)
  · exact Prod.Lex.right _ (by simp [remaining])
  · exact Prod.Lex.right' _ (count_setMark_le _ _ nofun) (by simp [remaining])
  · exact Prod.Lex.left _ _ (count_setMark_of_unvisited ‹_› nofun)
  · exact Prod.Lex.right _ (by simp [remaining])

/-- Marks that tell the given elements, all of which lie below `size`, from all
others. -/
def initialMarks (size : Nat) (elements : List Nat) : Array Mark :=
  (marks size elements).map fun isElement => if isElement then .unvisited else .done

/-- The given elements that can be reached from the roots, each after
its dependencies; or the first element that is met again before it was left. -/
def order (size : Nat) (elements : List Nat) (dependencies : Nat → List Nat)
    (roots : List Nat) : Except Nat (List Nat) :=
  run dependencies (initialMarks size elements) roots [] []

end TensorGraph.DepthFirst
