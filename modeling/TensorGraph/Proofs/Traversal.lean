import Mathlib.Data.List.Nodup
import Mathlib.Logic.Relation
import TensorGraph.Order.DepthFirst

/-!
# What a traversal finds

The elements that a traversal has marked as under way are those on its stack, so its
marks can be read off the stack and the list of the elements that it has not visited.
A traversal that comes to an end lists exactly the elements that its roots lead
to, each once and after everything that it depends on; one that meets an element
again has found a cycle.  Both are read off one description of a traversal under
way, which every step of it keeps.  What lies beyond the reach of the roots plays
no part.
-/

namespace TensorGraph.DepthFirst

open Relation

section Listed

/-- Carry a traversal to its end, with the elements that were not visited as a list and
those under way read off the stack. -/
def traverse (dependencies : Nat → List Nat) (unvisited : List Nat) (roots : List Nat)
    (stack : List Frame) (left : List Nat) : Except Nat (List Nat) :=
  match stack with
  | [] =>
      match roots with
      | [] => .ok left.reverse
      | root :: roots =>
          if root ∈ unvisited then
            traverse dependencies (unvisited.erase root) roots [⟨root, dependencies root⟩] left
          else traverse dependencies unvisited roots [] left
  | ⟨element, []⟩ :: stack => traverse dependencies unvisited roots stack (element :: left)
  | ⟨element, dependency :: pending⟩ :: stack =>
      if dependency ∈ unvisited then
        traverse dependencies (unvisited.erase dependency) roots
          (⟨dependency, dependencies dependency⟩ :: ⟨element, pending⟩ :: stack) left
      else if dependency = element ∨ dependency ∈ stack.map Frame.element then
        .error dependency
      else traverse dependencies unvisited roots (⟨element, pending⟩ :: stack) left
termination_by (unvisited.length, remaining roots stack)
decreasing_by
  · have shorter := List.length_erase_of_mem ‹root ∈ unvisited›
    have := List.length_pos_of_mem ‹root ∈ unvisited›
    exact Prod.Lex.left _ _ (by omega)
  · exact Prod.Lex.right _ (by simp [remaining])
  · exact Prod.Lex.right _ (by simp [remaining])
  · have shorter := List.length_erase_of_mem ‹dependency ∈ unvisited›
    have := List.length_pos_of_mem ‹dependency ∈ unvisited›
    exact Prod.Lex.left _ _ (by omega)
  · exact Prod.Lex.right _ (by simp [remaining])

def traverseFrom (elements : List Nat) (dependencies : Nat → List Nat) (roots : List Nat) :
    Except Nat (List Nat) :=
  traverse dependencies elements roots [] []

/-- Marks tell what was not visited, and what is on the stack is what they show to be
under way. -/
structure Match (marked : Array Mark) (unvisited : List Nat) (stack : List Frame) : Prop where
  nodup : (unvisited ++ stack.map Frame.element).Nodup
  unvisited_iff : ∀ element, markOf marked element = .unvisited ↔ element ∈ unvisited
  visiting_iff : ∀ element, markOf marked element = .visiting ↔ element ∈ stack.map Frame.element

variable {marked : Array Mark} {dependencies : Nat → List Nat}
variable {unvisited roots left : List Nat} {stack : List Frame}

theorem markOf_initialMarks (size : Nat) (elements : List Nat) (element : Nat) :
    markOf (initialMarks size elements) element =
      if element < size ∧ element ∈ elements then .unvisited else .done := by
  have isMarked := getD_marks size elements element
  rw [Array.getD_eq_getD_getElem?] at isMarked
  rw [markOf, initialMarks, Array.getD_eq_getD_getElem?, Array.getElem?_map]
  cases found : (marks size elements)[element]? with
  | none =>
      rw [found] at isMarked
      simp only [Option.getD_none, Bool.false_eq_true, false_iff] at isMarked
      simp [isMarked]
  | some isElement =>
      rw [found, Option.getD_some] at isMarked
      cases isElement <;> simp_all

namespace Match

theorem initial {size : Nat} {elements : List Nat} (nodup : elements.Nodup)
    (below : ∀ element ∈ elements, element < size) :
    Match (initialMarks size elements) elements [] where
  nodup := by simpa using nodup
  unvisited_iff element := by
    rw [markOf_initialMarks]
    constructor
    · intro new
      by_contra absent
      simp [absent] at new
    · intro member
      rw [if_pos ⟨below element member, member⟩]
  visiting_iff element := by
    rw [markOf_initialMarks]
    split <;> simp

/-- An element that was not visited is entered. -/
theorem enter (matched : Match marked unvisited stack) {element : Nat} (pending : List Nat)
    (new : markOf marked element = .unvisited) :
    Match (setMark marked element .visiting) (unvisited.erase element)
      (⟨element, pending⟩ :: stack) := by
  have below : element < marked.size := lt_size_of_markOf (by simp [new])
  have member := (matched.unvisited_iff element).mp new
  obtain ⟨once, openOnce, apart⟩ := List.nodup_append.mp matched.nodup
  have closed : element ∉ stack.map Frame.element :=
    fun isOpen => apart element member element isOpen rfl
  refine ⟨?_, fun other => ?_, fun other => ?_⟩
  · refine List.Perm.nodup_iff ?_ |>.mpr matched.nodup
    rw [List.map_cons]
    exact List.perm_middle.trans ((List.perm_cons_erase member).symm.append_right _)
  · rw [markOf_setMark, once.mem_erase_iff, ← matched.unvisited_iff]
    by_cases here : other = element
    · simp [here, below]
    · simp [here]
  · rw [markOf_setMark, List.map_cons, List.mem_cons, ← matched.visiting_iff]
    by_cases here : other = element
    · simp [here, below]
    · simp [here]

/-- The element on top of the stack is left. -/
theorem leave {frame : Frame} (matched : Match marked unvisited (frame :: stack)) :
    Match (setMark marked frame.element .done) unvisited stack := by
  have isOpen : markOf marked frame.element = .visiting :=
    (matched.visiting_iff frame.element).mpr (List.mem_cons_self ..)
  have below : frame.element < marked.size := lt_size_of_markOf (by simp [isOpen])
  obtain ⟨once, openOnce, apart⟩ := List.nodup_append.mp matched.nodup
  rw [List.map_cons, List.nodup_cons] at openOnce
  have visited : frame.element ∉ unvisited :=
    fun member => apart _ member _ (List.mem_cons_self ..) rfl
  refine ⟨?_, fun other => ?_, fun other => ?_⟩
  · refine List.nodup_append.mpr ⟨once, openOnce.2, fun first member second isOpen => ?_⟩
    exact apart first member second (List.mem_cons_of_mem _ isOpen)
  · rw [markOf_setMark, ← matched.unvisited_iff]
    by_cases here : other = frame.element
    · simp [here, below, isOpen]
    · simp [here]
  · rw [markOf_setMark]
    by_cases here : other = frame.element
    · simpa [here, below] using openOnce.1
    · rw [if_neg fun both => here both.1, matched.visiting_iff, List.map_cons, List.mem_cons,
        or_iff_right here]

/-- What is pending plays no part. -/
theorem advance {element : Nat} {pending later : List Nat}
    (matched : Match marked unvisited (⟨element, pending⟩ :: stack)) :
    Match marked unvisited (⟨element, later⟩ :: stack) :=
  ⟨matched.nodup, matched.unvisited_iff, matched.visiting_iff⟩

end Match

/-- The marks lead to what the list of the unvisited elements and the stack lead to. -/
theorem run_eq_traverse (matched : Match marked unvisited stack) :
    run dependencies marked roots stack left =
      traverse dependencies unvisited roots stack left := by
  fun_induction run dependencies marked roots stack left generalizing unvisited with
  | case1 marked left => rw [traverse]
  | case2 marked left root roots new ih =>
      rw [traverse, if_pos ((matched.unvisited_iff root).mp new)]
      exact ih (matched.enter _ new)
  | case3 marked left root roots visited ih =>
      rw [traverse, if_neg fun new => visited ((matched.unvisited_iff root).mpr new)]
      exact ih matched
  | case4 marked roots left element stack ih =>
      rw [traverse]
      exact ih matched.leave
  | case5 marked roots left element dependency pending stack new ih =>
      rw [traverse, if_pos ((matched.unvisited_iff dependency).mp new)]
      exact ih (matched.advance.enter _ new)
  | case6 marked roots left element dependency pending stack visited isOpen =>
      rw [traverse, if_neg fun new => visited ((matched.unvisited_iff dependency).mpr new),
        if_pos]
      simpa using (matched.visiting_iff dependency).mp isOpen
  | case7 marked roots left element dependency pending stack visited closed ih =>
      rw [traverse, if_neg fun new => visited ((matched.unvisited_iff dependency).mpr new),
        if_neg]
      · exact ih matched.advance
      · intro isOpen
        exact closed ((matched.visiting_iff dependency).mpr (by simpa using isOpen))

theorem order_eq_traverseFrom {size : Nat} {elements : List Nat} (nodup : elements.Nodup)
    (below : ∀ element ∈ elements, element < size) (roots : List Nat) :
    order size elements dependencies roots = traverseFrom elements dependencies roots :=
  run_eq_traverse (.initial nodup below)

end Listed

section Underway

variable (elements : List Nat) (dependencies : Nat → List Nat)

/-- An element depends on another one that is to be ordered. -/
def Leads (dependent dependency : Nat) : Prop :=
  dependency ∈ dependencies dependent ∧ dependency ∈ elements

/-- Some root that is to be ordered leads to the element. -/
def Reached (roots : List Nat) (element : Nat) : Prop :=
  ∃ root ∈ roots, root ∈ elements ∧ ReflTransGen (Leads elements dependencies) root element

/-- Of a list with the latest element first, each element stands after all that it
depends on. -/
def Settled : List Nat → Prop
  | [] => True
  | latest :: earlier =>
      (∀ dependency, Leads elements dependencies latest dependency → dependency ∈ earlier) ∧
        Settled earlier

/-- What an open element depends on is pending, was left, or is open above it. -/
def Awaited (left : List Nat) : List Nat → List Frame → Prop
  | _, [] => True
  | above, frame :: below =>
      (∀ dependency, Leads elements dependencies frame.element dependency →
        dependency ∈ frame.pending ∨ dependency ∈ left ∨ dependency ∈ above) ∧
      Awaited left (frame.element :: above) below

/-- A traversal that began with the given roots: every element to be ordered is
unvisited, open or left, and only once; the open ones form a chain of
dependencies. -/
structure Underway (start unvisited roots : List Nat) (stack : List Frame) (left : List Nat) :
    Prop where
  apart : (unvisited ++ (stack.map Frame.element ++ left)).Perm elements
  settled : Settled elements dependencies left
  awaited : Awaited elements dependencies left [] stack
  chain : stack.IsChain fun upper lower =>
    Leads elements dependencies lower.element upper.element
  pending : ∀ frame ∈ stack, frame.pending ⊆ dependencies frame.element
  reached : ∀ element, element ∈ stack.map Frame.element ∨ element ∈ left →
    Reached elements dependencies start element
  within : roots ⊆ start
  covered : ∀ root ∈ start, root ∈ elements →
    root ∈ roots ∨ root ∈ stack.map Frame.element ∨ root ∈ left

end Underway

variable {elements : List Nat} {dependencies : Nat → List Nat}
variable {start unvisited roots left : List Nat} {stack : List Frame}

theorem Reached.step {element dependency : Nat}
    (reached : Reached elements dependencies start element)
    (leads : Leads elements dependencies element dependency) :
    Reached elements dependencies start dependency := by
  obtain ⟨root, member, alive, path⟩ := reached
  exact ⟨root, member, alive, path.tail leads⟩

theorem Settled.closed {settledList : List Nat}
    (settled : Settled elements dependencies settledList) {element dependency : Nat}
    (member : element ∈ settledList) (leads : Leads elements dependencies element dependency) :
    dependency ∈ settledList := by
  induction settledList with
  | nil => cases member
  | cons latest earlier ih =>
      rcases List.mem_cons.mp member with rfl | before
      · exact List.mem_cons_of_mem _ (settled.1 dependency leads)
      · exact List.mem_cons_of_mem _ (ih settled.2 before)

theorem Settled.of_append {later settledList : List Nat}
    (settled : Settled elements dependencies (later ++ settledList)) :
    Settled elements dependencies settledList := by
  induction later with
  | nil => exact settled
  | cons _ _ ih => exact ih settled.2

theorem Settled.mem_of_path {latest : Nat} {earlier : List Nat}
    (settled : Settled elements dependencies (latest :: earlier)) {element : Nat}
    (path : TransGen (Leads elements dependencies) latest element) : element ∈ earlier := by
  induction path with
  | single leads => exact settled.1 _ leads
  | tail _ leads ih => exact settled.2.closed ih leads

/-- No element of a settled list lies on a cycle. -/
theorem Settled.acyclic {settledList : List Nat}
    (settled : Settled elements dependencies settledList) (nodup : settledList.Nodup)
    {element : Nat} (member : element ∈ settledList) :
    ¬ TransGen (Leads elements dependencies) element element := by
  intro cycle
  obtain ⟨later, earlier, rfl⟩ := List.append_of_mem member
  have again := settled.of_append.mem_of_path cycle
  exact (List.nodup_cons.mp nodup.of_append_right).1 again

theorem Awaited.mono {left laterLeft above laterAbove : List Nat} {stack : List Frame}
    (awaited : Awaited elements dependencies left above stack)
    (grows : ∀ element, element ∈ left ∨ element ∈ above →
      element ∈ laterLeft ∨ element ∈ laterAbove) :
    Awaited elements dependencies laterLeft laterAbove stack := by
  induction stack generalizing above laterAbove with
  | nil => trivial
  | cons frame below ih =>
      refine ⟨fun dependency leads => ?_, ih awaited.2 fun element known => ?_⟩
      · rcases awaited.1 dependency leads with pending | known
        · exact Or.inl pending
        · exact Or.inr (grows dependency known)
      · rcases known with inLeft | inAbove
        · rcases grows element (Or.inl inLeft) with known | known
          · exact Or.inl known
          · exact Or.inr (List.mem_cons_of_mem _ known)
        · rcases List.mem_cons.mp inAbove with rfl | further
          · exact Or.inr (List.mem_cons_self ..)
          · rcases grows element (Or.inr further) with known | known
            · exact Or.inl known
            · exact Or.inr (List.mem_cons_of_mem _ known)

namespace Underway

/-- Every open element leads to the one on top of the stack. -/
theorem path_to_top {element : Nat} {pending : List Nat}
    (underway : Underway elements dependencies start unvisited roots
      (⟨element, pending⟩ :: stack) left) {other : Nat}
    (isOpen : other ∈ stack.map Frame.element) :
    TransGen (Leads elements dependencies) other element := by
  have chain := underway.chain
  clear underway
  induction stack generalizing element pending with
  | nil => cases isOpen
  | cons frame below ih =>
      have leads := (List.isChain_cons_cons.mp chain).1
      rcases List.mem_cons.mp isOpen with rfl | further
      · exact .single leads
      · exact (ih further (List.isChain_cons_cons.mp chain).2).tail leads

theorem mem_elements {element : Nat}
    (underway : Underway elements dependencies start unvisited roots stack left)
    (visited : element ∈ stack.map Frame.element ∨ element ∈ left) : element ∈ elements := by
  apply underway.apart.subset
  simp only [List.mem_append]
  exact Or.inr visited

theorem of_mem_elements {element : Nat}
    (underway : Underway elements dependencies start unvisited roots stack left)
    (member : element ∈ elements) (visited : element ∉ unvisited) :
    element ∈ stack.map Frame.element ∨ element ∈ left := by
  have placed := underway.apart.symm.subset member
  simp only [List.mem_append] at placed
  exact placed.resolve_left visited

theorem initial (elements : List Nat) (dependencies : Nat → List Nat) (roots : List Nat) :
    Underway elements dependencies roots elements roots [] [] where
  apart := by simp
  settled := trivial
  awaited := trivial
  chain := .nil
  pending := by simp
  reached := by simp
  within := List.Subset.refl _
  covered := fun _ member _ => Or.inl member

/-- A root that was not visited is entered. -/
theorem enter_root {root : Nat}
    (underway : Underway elements dependencies start unvisited (root :: roots) [] left)
    (new : root ∈ unvisited) :
    Underway elements dependencies start (unvisited.erase root) roots
      [⟨root, dependencies root⟩] left where
  apart := by
    refine List.Perm.trans ?_ underway.apart
    simp only [List.map_cons, List.map_nil, List.nil_append, List.cons_append]
    exact (List.perm_middle.trans ((List.perm_cons_erase new).symm.append_right left))
  settled := underway.settled
  awaited := ⟨fun _ leads => Or.inl leads.1, trivial⟩
  chain := .singleton _
  pending := by simp
  reached := by
    intro element visited
    rcases visited with isOpen | before
    · obtain rfl : element = root := by simpa using isOpen
      refine ⟨element, underway.within (List.mem_cons_self ..), ?_, .refl⟩
      exact underway.apart.subset (List.mem_append_left _ new)
    · exact underway.reached element (Or.inr before)
  within := fun _ member => underway.within (List.mem_cons_of_mem _ member)
  covered := by
    intro other member alive
    rcases underway.covered other member alive with pendingRoot | absent | before
    · rcases List.mem_cons.mp pendingRoot with rfl | later
      · exact Or.inr (Or.inl (by simp))
      · exact Or.inl later
    · cases absent
    · exact Or.inr (Or.inr before)

/-- A root that was visited is passed over. -/
theorem pass_root {root : Nat}
    (underway : Underway elements dependencies start unvisited (root :: roots) [] left)
    (visited : root ∉ unvisited) :
    Underway elements dependencies start unvisited roots [] left where
  apart := underway.apart
  settled := underway.settled
  awaited := trivial
  chain := .nil
  pending := by simp
  reached := underway.reached
  within := fun _ member => underway.within (List.mem_cons_of_mem _ member)
  covered := by
    intro other member alive
    rcases underway.covered other member alive with now | known
    · rcases List.mem_cons.mp now with rfl | later
      · exact Or.inr (underway.of_mem_elements alive visited)
      · exact Or.inl later
    · exact Or.inr known

/-- An open element with nothing pending is left. -/
theorem leave {element : Nat}
    (underway : Underway elements dependencies start unvisited roots
      (⟨element, []⟩ :: stack) left) :
    Underway elements dependencies start unvisited roots stack (element :: left) where
  apart := by
    refine List.Perm.trans (List.Perm.append_left _ ?_) underway.apart
    exact List.perm_middle
  settled := by
    refine ⟨fun dependency leads => ?_, underway.settled⟩
    rcases underway.awaited.1 dependency leads with pending | before | above
    · cases pending
    · exact before
    · cases above
  awaited := underway.awaited.2.mono fun other known => by
    simp only [List.mem_cons, List.not_mem_nil, or_false] at known ⊢
    exact known.symm
  chain := underway.chain.of_cons
  pending := fun frame member => underway.pending frame (List.mem_cons_of_mem _ member)
  reached := by
    intro other visited
    apply underway.reached
    simp only [List.map_cons, List.mem_cons] at visited ⊢
    tauto
  within := underway.within
  covered := by
    intro root member alive
    have known := underway.covered root member alive
    simp only [List.map_cons, List.mem_cons] at known ⊢
    tauto

/-- A pending dependency that was not visited is entered. -/
theorem enter {element dependency : Nat} {pending : List Nat}
    (underway : Underway elements dependencies start unvisited roots
      (⟨element, dependency :: pending⟩ :: stack) left)
    (new : dependency ∈ unvisited) :
    Underway elements dependencies start (unvisited.erase dependency) roots
      (⟨dependency, dependencies dependency⟩ :: ⟨element, pending⟩ :: stack) left := by
  have alive : dependency ∈ elements :=
    underway.apart.subset (List.mem_append_left _ new)
  have leads : Leads elements dependencies element dependency :=
    ⟨underway.pending _ (List.mem_cons_self ..) (List.mem_cons_self ..), alive⟩
  refine
    { apart := ?_, settled := underway.settled, awaited := ?_, chain := ?_, pending := ?_,
      reached := ?_, within := underway.within, covered := ?_ }
  · refine List.Perm.trans ?_ underway.apart
    simp only [List.map_cons, List.cons_append]
    exact List.perm_middle.trans ((List.perm_cons_erase new).symm.append_right _)
  · refine ⟨fun _ leads => Or.inl leads.1, fun other leads => ?_, ?_⟩
    · rcases underway.awaited.1 other leads with now | before | above
      · rcases List.mem_cons.mp now with rfl | later
        · exact Or.inr (Or.inr (List.mem_cons_self ..))
        · exact Or.inl later
      · exact Or.inr (Or.inl before)
      · cases above
    · apply underway.awaited.2.mono
      intro other known
      rcases known with before | above
      · exact Or.inl before
      · simp only [List.mem_singleton] at above
        simp [above]
  · refine List.isChain_cons_cons.mpr ⟨leads, ?_⟩
    cases stack with
    | nil => exact .singleton _
    | cons frame below =>
        exact List.isChain_cons_cons.mpr (List.isChain_cons_cons.mp underway.chain)
  · intro frame member
    rcases List.mem_cons.mp member with rfl | member
    · exact List.Subset.refl _
    rcases List.mem_cons.mp member with rfl | member
    · exact fun _ later => underway.pending _ (List.mem_cons_self ..)
        (List.mem_cons_of_mem _ later)
    · exact underway.pending frame (List.mem_cons_of_mem _ member)
  · intro other visited
    simp only [List.map_cons, List.mem_cons] at visited
    rcases visited with (rfl | rest) | before
    · exact (underway.reached element (Or.inl (by simp))).step leads
    · exact underway.reached other (Or.inl (by simpa using rest))
    · exact underway.reached other (Or.inr before)
  · intro root member alive
    have known := underway.covered root member alive
    simp only [List.map_cons, List.mem_cons] at known ⊢
    tauto

/-- A pending dependency that was left is passed over. -/
theorem pass {element dependency : Nat} {pending : List Nat}
    (underway : Underway elements dependencies start unvisited roots
      (⟨element, dependency :: pending⟩ :: stack) left)
    (visited : dependency ∉ unvisited)
    (closed : ¬ (dependency = element ∨ dependency ∈ stack.map Frame.element)) :
    Underway elements dependencies start unvisited roots (⟨element, pending⟩ :: stack) left := by
  refine
    { apart := underway.apart, settled := underway.settled,
      awaited := ⟨fun other leads => ?_, underway.awaited.2⟩,
      chain := ?_, pending := ?_, reached := underway.reached, within := underway.within,
      covered := underway.covered }
  · rcases underway.awaited.1 other leads with now | known
    · rcases List.mem_cons.mp now with rfl | later
      · rcases underway.of_mem_elements leads.2 visited with isOpen | before
        · exact (closed (by simpa using isOpen)).elim
        · exact Or.inr (Or.inl before)
      · exact Or.inl later
    · exact Or.inr known
  · cases stack with
    | nil => exact .singleton _
    | cons frame below =>
        exact List.isChain_cons_cons.mpr (List.isChain_cons_cons.mp underway.chain)
  · intro frame member
    rcases List.mem_cons.mp member with rfl | member
    · exact fun _ later => underway.pending _ (List.mem_cons_self ..)
        (List.mem_cons_of_mem _ later)
    · exact underway.pending frame (List.mem_cons_of_mem _ member)

end Underway

/-- What a traversal answers: all that the roots lead to, each element once and
after its dependencies, or an element on a cycle within reach. -/
def Answers (elements : List Nat) (dependencies : Nat → List Nat) (roots : List Nat) :
    Except Nat (List Nat) → Prop
  | .ok order =>
      order.Nodup ∧ Settled elements dependencies order.reverse ∧
        ∀ element, element ∈ order ↔ Reached elements dependencies roots element
  | .error element =>
      Reached elements dependencies roots element ∧
        TransGen (Leads elements dependencies) element element

theorem Underway.answers
    (underway : Underway elements dependencies start unvisited roots stack left)
    (nodup : elements.Nodup) :
    Answers elements dependencies start (traverse dependencies unvisited roots stack left) := by
  fun_induction traverse dependencies unvisited roots stack left with
  | case1 unvisited left =>
      have apart := underway.apart.nodup_iff.mpr nodup
      refine ⟨List.nodup_reverse.mpr ?_, by simpa using underway.settled, fun element => ?_⟩
      · exact (List.nodup_append.mp apart).2.1
      · rw [List.mem_reverse]
        refine ⟨fun member => underway.reached element (Or.inr member), ?_⟩
        rintro ⟨root, member, alive, path⟩
        induction path with
        | refl =>
            rcases underway.covered root member alive with absent | absent | before
            · cases absent
            · cases absent
            · exact before
        | tail _ leads ih => exact underway.settled.closed ih leads
  | case2 unvisited left root roots new ih => exact ih (underway.enter_root new)
  | case3 unvisited left root roots visited ih => exact ih (underway.pass_root visited)
  | case4 unvisited roots left element stack ih => exact ih underway.leave
  | case5 unvisited roots left element dependency pending stack new ih =>
      exact ih (underway.enter new)
  | case6 unvisited roots left element dependency pending stack visited isOpen =>
      have isTop : element ∈ (⟨element, dependency :: pending⟩ :: stack).map Frame.element :=
        List.mem_cons_self ..
      have known : dependency ∈
          (⟨element, dependency :: pending⟩ :: stack).map Frame.element := by
        simpa using isOpen
      have leads : Leads elements dependencies element dependency :=
        ⟨underway.pending _ (List.mem_cons_self ..) (List.mem_cons_self ..),
          underway.mem_elements (Or.inl known)⟩
      refine ⟨underway.reached dependency (Or.inl known), ?_⟩
      rcases isOpen with rfl | below
      · exact .single leads
      · exact (underway.path_to_top below).tail leads
  | case7 unvisited roots left element dependency pending stack visited closed ih =>
      exact ih (underway.pass visited closed)

/-- A traversal lists what the roots lead to, or finds a cycle there. -/
theorem traverseFrom_answers (nodup : elements.Nodup) (roots : List Nat) :
    Answers elements dependencies roots (traverseFrom elements dependencies roots) :=
  (Underway.initial elements dependencies roots).answers nodup

section Congruence

variable {others : List Nat} {otherDependencies : Nat → List Nat} {within : Nat → Prop}

/-- Two traversals take the same course if they agree on what they come across. -/
theorem traverse_congr
    (agree : ∀ element, within element →
      otherDependencies element = dependencies element ∧
        ∀ dependency ∈ dependencies element, within dependency)
    {otherUnvisited : List Nat} (nodup : unvisited.Nodup) (otherNodup : otherUnvisited.Nodup)
    (same : ∀ element, within element → (element ∈ otherUnvisited ↔ element ∈ unvisited))
    (rootsWithin : ∀ root ∈ roots, within root)
    (stackWithin : ∀ frame ∈ stack, ∀ dependency ∈ frame.pending, within dependency) :
    traverse otherDependencies otherUnvisited roots stack left =
      traverse dependencies unvisited roots stack left := by
  have erased {element : Nat} {unvisited otherUnvisited : List Nat} (nodup : unvisited.Nodup)
      (otherNodup : otherUnvisited.Nodup)
      (same : ∀ element, within element → (element ∈ otherUnvisited ↔ element ∈ unvisited)) :
      ∀ other, within other →
        (other ∈ otherUnvisited.erase element ↔ other ∈ unvisited.erase element) := by
    intro other inside
    rw [nodup.mem_erase_iff, otherNodup.mem_erase_iff, same other inside]
  fun_induction traverse dependencies unvisited roots stack left generalizing otherUnvisited with
  | case1 unvisited left => simp only [traverse]
  | case2 unvisited left root roots new ih =>
      have inside := rootsWithin root (List.mem_cons_self ..)
      rw [traverse, if_pos ((same root inside).mpr new), (agree root inside).1]
      refine ih (nodup.erase _) (otherNodup.erase _) (erased nodup otherNodup same)
        (fun root member => rootsWithin root (List.mem_cons_of_mem _ member)) ?_
      simpa using (agree root inside).2
  | case3 unvisited left root roots visited ih =>
      have inside := rootsWithin root (List.mem_cons_self ..)
      rw [traverse, if_neg fun new => visited ((same root inside).mp new)]
      exact ih nodup otherNodup same
        (fun root member => rootsWithin root (List.mem_cons_of_mem _ member)) stackWithin
  | case4 unvisited roots left element stack ih =>
      rw [traverse]
      exact ih nodup otherNodup same rootsWithin
        fun frame member => stackWithin frame (List.mem_cons_of_mem _ member)
  | case5 unvisited roots left element dependency pending stack new ih =>
      have inside := stackWithin _ (List.mem_cons_self ..) dependency (List.mem_cons_self ..)
      rw [traverse, if_pos ((same dependency inside).mpr new), (agree dependency inside).1]
      apply ih (nodup.erase _) (otherNodup.erase _) (erased nodup otherNodup same) rootsWithin
      intro frame member
      rcases List.mem_cons.mp member with rfl | member
      · exact (agree dependency inside).2
      rcases List.mem_cons.mp member with rfl | member
      · exact fun other later => stackWithin _ (List.mem_cons_self ..) other
          (List.mem_cons_of_mem _ later)
      · exact stackWithin frame (List.mem_cons_of_mem _ member)
  | case6 unvisited roots left element dependency pending stack visited isOpen =>
      have inside := stackWithin _ (List.mem_cons_self ..) dependency (List.mem_cons_self ..)
      rw [traverse, if_neg fun new => visited ((same dependency inside).mp new), if_pos isOpen]
  | case7 unvisited roots left element dependency pending stack visited closed ih =>
      have inside := stackWithin _ (List.mem_cons_self ..) dependency (List.mem_cons_self ..)
      rw [traverse, if_neg fun new => visited ((same dependency inside).mp new), if_neg closed]
      apply ih nodup otherNodup same rootsWithin
      intro frame member
      rcases List.mem_cons.mp member with rfl | member
      · exact fun other later => stackWithin _ (List.mem_cons_self ..) other
          (List.mem_cons_of_mem _ later)
      · exact stackWithin frame (List.mem_cons_of_mem _ member)

/-- What lies outside a part that holds the roots and all that it depends on has no
influence on the order. -/
theorem traverseFrom_congr
    (agree : ∀ element, within element →
      otherDependencies element = dependencies element ∧
        ∀ dependency ∈ dependencies element, within dependency)
    (nodup : elements.Nodup) (otherNodup : others.Nodup)
    (same : ∀ element, within element → (element ∈ others ↔ element ∈ elements))
    (rootsWithin : ∀ root ∈ roots, within root) :
    traverseFrom others otherDependencies roots = traverseFrom elements dependencies roots :=
  traverse_congr agree nodup otherNodup same rootsWithin (by simp)

end Congruence

end TensorGraph.DepthFirst
