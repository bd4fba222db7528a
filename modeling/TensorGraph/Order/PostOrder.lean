/-!
# Post-order by recursion

The order in which a recursive visit leaves the elements that it reaches, as a
relation: to visit an element is to visit its dependencies one after the other
and then to leave it.  An element that was left before is passed over, and one
that is met again before it was left ends the visit.
-/

namespace TensorGraph.PostOrder

mutual

/-- Visiting an element below the ones on the path, after the given ones were
left, ends with the elements left by then or with an element met again. -/
inductive Visits (dependencies : Nat → List Nat) :
    List Nat → List Nat → Nat → Except Nat (List Nat) → Prop where
  | passed {path left : List Nat} {element : Nat} (known : element ∈ left) :
      Visits dependencies path left element (.ok left)
  | metAgain {path left : List Nat} {element : Nat} (new : element ∉ left)
      (isOpen : element ∈ path) :
      Visits dependencies path left element (.error element)
  | completed {path left after : List Nat} {element : Nat} (new : element ∉ left)
      (closed : element ∉ path)
      (below : VisitsAll dependencies (element :: path) left (dependencies element) (.ok after)) :
      Visits dependencies path left element (.ok (after ++ [element]))
  | failed {path left : List Nat} {element again : Nat} (new : element ∉ left)
      (closed : element ∉ path)
      (below : VisitsAll dependencies (element :: path) left (dependencies element)
        (.error again)) :
      Visits dependencies path left element (.error again)

/-- Visiting elements one after the other. -/
inductive VisitsAll (dependencies : Nat → List Nat) :
    List Nat → List Nat → List Nat → Except Nat (List Nat) → Prop where
  | nil {path left : List Nat} : VisitsAll dependencies path left [] (.ok left)
  | cons {path left between : List Nat} {element : Nat} {elements : List Nat}
      {outcome : Except Nat (List Nat)}
      (first : Visits dependencies path left element (.ok between))
      (rest : VisitsAll dependencies path between elements outcome) :
      VisitsAll dependencies path left (element :: elements) outcome
  | stop {path left : List Nat} {element again : Nat} {elements : List Nat}
      (first : Visits dependencies path left element (.error again)) :
      VisitsAll dependencies path left (element :: elements) (.error again)

end

/-- A visit of the roots, with nothing left before, has the given outcome. -/
def Orders (dependencies : Nat → List Nat) (roots : List Nat)
    (outcome : Except Nat (List Nat)) : Prop :=
  VisitsAll dependencies [] [] roots outcome

end TensorGraph.PostOrder
