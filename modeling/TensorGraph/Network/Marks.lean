/-!
# Marks

Sets of small numbers as arrays of marks, and how often numbers occur as arrays
of counts, so that a look-up takes the same time however many there are.
-/

namespace TensorGraph

/-- Which of the numbers below `size` are among the given ones. -/
def marks (size : Nat) (numbers : List Nat) : Array Bool :=
  numbers.foldl (fun marked number => marked.setIfInBounds number true)
    (Array.replicate size false)

def countMore (counts : Array Nat) (numbers : List Nat) : Array Nat :=
  numbers.foldl (fun counts number => counts.modify number (· + 1)) counts

/-- No longer count some numbers. -/
def countLess (counts : Array Nat) (numbers : List Nat) : Array Nat :=
  numbers.foldl (fun counts number => counts.modify number (· - 1)) counts

/-- How often each of the numbers below `size` is among the given ones. -/
def counts (size : Nat) (numbers : List Nat) : Array Nat :=
  countMore (Array.replicate size 0) numbers

theorem getElem?_foldl_setIfInBounds (marked : Array Bool) (numbers : List Nat) (number : Nat) :
    (numbers.foldl (fun marked number => marked.setIfInBounds number true) marked)[number]? =
      if number < marked.size ∧ number ∈ numbers then some true else marked[number]? := by
  induction numbers generalizing marked with
  | nil => simp
  | cons first rest inductionHypothesis =>
      rw [List.foldl_cons, inductionHypothesis]
      simp only [Array.size_setIfInBounds, Array.getElem?_setIfInBounds, List.mem_cons]
      grind

/-- A number is marked if it is among the given ones and below the size. -/
theorem getD_marks (size : Nat) (numbers : List Nat) (number : Nat) :
    (marks size numbers).getD number false = true ↔ number < size ∧ number ∈ numbers := by
  rw [Array.getD_eq_getD_getElem?, marks, getElem?_foldl_setIfInBounds]
  by_cases below : number < size <;> by_cases member : number ∈ numbers <;>
    simp [below, member]

/-- Every occurrence of a number counts. -/
theorem getD_countMore (counted : Array Nat) (numbers : List Nat) {number : Nat}
    (below : number < counted.size) :
    (countMore counted numbers).getD number 0 =
      counted.getD number 0 + numbers.count number := by
  induction numbers generalizing counted with
  | nil => simp [countMore]
  | cons first rest inductionHypothesis =>
      have shorter := inductionHypothesis (counted.modify first (· + 1)) (by simpa using below)
      rw [countMore, List.foldl_cons]
      rw [countMore] at shorter
      rw [shorter, List.count_cons]
      simp only [Array.getD_eq_getD_getElem?, Array.getElem?_modify]
      by_cases same : first = number
      · simp [same, Array.getElem?_eq_getElem below]
        omega
      · simp [same]

/-- Every occurrence of a number counts. -/
theorem getD_counts (size : Nat) (numbers : List Nat) {number : Nat} (below : number < size) :
    (counts size numbers).getD number 0 = numbers.count number := by
  rw [counts, getD_countMore _ _ (by simpa using below)]
  simp [Array.getD_eq_getD_getElem?, below]

/-- Every occurrence of a number is taken off. -/
theorem getD_countLess (counted : Array Nat) (numbers : List Nat) (number : Nat) :
    (countLess counted numbers).getD number 0 =
      counted.getD number 0 - numbers.count number := by
  induction numbers generalizing counted with
  | nil => simp [countLess]
  | cons first rest inductionHypothesis =>
      have shorter := inductionHypothesis (counted.modify first (· - 1))
      rw [countLess, List.foldl_cons]
      rw [countLess] at shorter
      rw [shorter, List.count_cons]
      simp only [Array.getD_eq_getD_getElem?, Array.getElem?_modify]
      by_cases same : first = number
      · cases counted[number]? <;> simp [same]
        omega
      · simp [same]

end TensorGraph
