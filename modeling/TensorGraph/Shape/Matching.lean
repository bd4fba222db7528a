import TensorGraph.Shape

/-!
# What partial knowledge stands for

A partial shape stands for the static shapes that match it.  One shape or element
type refines another when it fixes at least what the other fixes, so that it
stands for no more.
-/

namespace TensorGraph

/-- `finer` fixes at least what `coarser` fixes. -/
def ElementType.Refines (finer coarser : ElementType) : Prop :=
  coarser = dynamic ∨ finer = coarser

namespace PartialShape

/-- Each size is the known one where the dimension at its place is known. -/
def MatchesDims : List Nat → List Dim → Prop
  | [], [] => True
  | size :: sizes, dim :: dims =>
      (∀ known, dim = some known → size = known) ∧ MatchesDims sizes dims
  | _, _ => False

/-- The static shape with the given sizes is one of those that the partial shape
stands for. -/
def Matches (sizes : List Nat) : PartialShape → Prop
  | unranked => True
  | ranked dims => MatchesDims sizes dims

/-- Each dimension is known and the same where the one at its place in the other
list is known. -/
def RefinesDims : List Dim → List Dim → Prop
  | [], [] => True
  | fine :: fines, coarse :: coarses => (coarse = none ∨ fine = coarse) ∧ RefinesDims fines coarses
  | _, _ => False

/-- `finer` fixes at least what `coarser` fixes. -/
def Refines : PartialShape → PartialShape → Prop
  | _, unranked => True
  | unranked, ranked _ => False
  | ranked fine, ranked coarse => RefinesDims fine coarse

/-- The sizes of a static shape match it. -/
theorem matchesDims_map_some (sizes : List Nat) : MatchesDims sizes (sizes.map some) := by
  induction sizes with
  | nil => trivial
  | cons size sizes inductionHypothesis =>
      exact ⟨fun known equal => Option.some.inj equal, inductionHypothesis⟩

/-- Whatever matches the finer dimensions matches the coarser ones. -/
theorem RefinesDims.matches {sizes : List Nat} {fine coarse : List Dim}
    (refines : RefinesDims fine coarse) (matched : MatchesDims sizes fine) :
    MatchesDims sizes coarse := by
  induction coarse generalizing sizes fine with
  | nil =>
      cases fine with
      | nil => exact matched
      | cons _ _ => exact refines.elim
  | cons dim dims inductionHypothesis =>
      cases fine with
      | nil => exact refines.elim
      | cons first rest =>
          cases sizes with
          | nil => exact matched.elim
          | cons size sizes =>
              refine ⟨?_, inductionHypothesis refines.2 matched.2⟩
              intro known equal
              rcases refines.1 with unknown | same
              · simp [unknown] at equal
              · exact matched.1 known (same.trans equal)

/-- Whatever matches the finer shape matches the coarser one. -/
theorem Refines.matches {sizes : List Nat} {finer coarser : PartialShape}
    (refines : Refines finer coarser) (matched : Matches sizes finer) :
    Matches sizes coarser := by
  cases coarser with
  | unranked => trivial
  | ranked coarse =>
      cases finer with
      | unranked => exact refines.elim
      | ranked fine => exact RefinesDims.matches refines matched

end PartialShape

/-- `finer` fixes at least what `coarser` fixes. -/
def TensorType.Refines (finer coarser : TensorType) : Prop :=
  finer.elementType.Refines coarser.elementType ∧ finer.shape.Refines coarser.shape

end TensorGraph
