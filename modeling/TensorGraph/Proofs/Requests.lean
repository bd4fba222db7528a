import Mathlib
import TensorGraph.Proofs.Rollback

/-!
# Requests for shapes

What a reshape takes from its requests.  Each of them is for a parameter or the reshape is
refused, and requests for one parameter have to ask for one shape; so what is taken is a list
with each parameter once, and which entries it has depends on which requests there are, but not
on how often or in which order they are made.  The order of the entries plays no part either,
since each of them redeclares another parameter.
-/

namespace TensorGraph

namespace Network

section Collecting

variable {network after : Network} {id : GraphId}

/-- What a request asks for: a parameter of the graph and the shape that it is to have. -/
def demand? (network : Network) (id : GraphId) (request : ShapeTarget × PartialShape) :
    Option (NodeId × PartialShape) :=
  (network.parameterOf? id request.1).map fun parameter => (parameter, request.2)

/-- A request that is taken up is already among the earlier ones, or is for a parameter that
none of them is for. -/
theorem of_addRequest {earlier extended : List (NodeId × PartialShape)}
    {request : ShapeTarget × PartialShape}
    (added : (Edit.addRequest id earlier request).on network = (.ok extended, after)) :
    after = network ∧ ∃ entry, network.demand? id request = some entry ∧
      (extended = earlier ∧ entry ∈ earlier ∨
        extended = earlier ++ [entry] ∧ entry.1 ∉ earlier.map Prod.fst) := by
  obtain ⟨parameter, between, resolved, taken⟩ := Edit.of_on_bind added
  obtain ⟨found, unchanged⟩ := on_resolveParameter_iff.mp resolved
  rw [unchanged] at taken
  have demanded : network.demand? id request = some (parameter, request.2) := by
    rw [demand?, found, Option.map_some]
  split at taken
  next new =>
    cases taken
    refine ⟨rfl, _, demanded, Or.inr ⟨rfl, fun known => ?_⟩⟩
    obtain ⟨entry, member, same⟩ := List.mem_map.mp known
    simpa [same] using List.find?_eq_none.mp new entry member
  next other shape known =>
    have member := List.mem_of_find?_eq_some known
    have same : other = parameter := by simpa using List.find?_some known
    split at taken
    next asked =>
      cases taken
      exact ⟨rfl, _, demanded, Or.inl ⟨rfl, by rw [← same, ← asked]; exact member⟩⟩
    · obtain ⟨current, later, -, refused⟩ := Edit.of_on_bind taken
      cases refused

/-- A request that contradicts no earlier one is taken up. -/
theorem on_addRequest {earlier : List (NodeId × PartialShape)}
    {request : ShapeTarget × PartialShape} {entry : NodeId × PartialShape}
    (demanded : network.demand? id request = some entry)
    (agrees : ∀ other ∈ earlier, other.1 = entry.1 → other = entry) :
    ∃ extended, (Edit.addRequest id earlier request).on network = (.ok extended, network) := by
  obtain ⟨parameter, found, rfl⟩ := Option.map_eq_some_iff.mp demanded
  rw [Edit.addRequest, Edit.on_bind, on_resolveParameter_iff.mpr ⟨found, rfl⟩]
  dsimp only
  split
  · exact ⟨_, rfl⟩
  next other shape known =>
    have same : other = parameter := by simpa using List.find?_some known
    have asked := agrees _ (List.mem_of_find?_eq_some known) same
    rw [if_pos (congrArg Prod.snd asked)]
    exact ⟨_, rfl⟩

/-- The requests that are taken up leave the network as it is and come to a list with each
parameter once, which has what they ask for and nothing else. -/
theorem of_addRequests {requests : List (ShapeTarget × PartialShape)}
    {earlier shapes : List (NodeId × PartialShape)} (once : (earlier.map Prod.fst).Nodup)
    (added : (requests.foldlM (Edit.addRequest id) earlier).on network = (.ok shapes, after)) :
    after = network ∧ (shapes.map Prod.fst).Nodup ∧
      (∀ request ∈ requests, ∃ entry, network.demand? id request = some entry) ∧
      ∀ entry, entry ∈ shapes ↔
        entry ∈ earlier ∨ ∃ request ∈ requests, network.demand? id request = some entry := by
  induction requests generalizing earlier with
  | nil =>
      cases added
      exact ⟨rfl, once, by simp, by simp⟩
  | cons request requests ih =>
      rw [List.foldlM_cons] at added
      obtain ⟨extended, between, first, rest⟩ := Edit.of_on_bind added
      obtain ⟨unchanged, entry, demanded, outcome⟩ := of_addRequest first
      rw [unchanged] at rest
      have onceStill : (extended.map Prod.fst).Nodup := by
        rcases outcome with ⟨rfl, -⟩ | ⟨rfl, new⟩
        · exact once
        · rw [List.map_append, List.map_singleton]
          exact List.nodup_append_comm.mp (List.nodup_cons.mpr ⟨new, once⟩)
      have members (other : NodeId × PartialShape) :
          other ∈ extended ↔ other ∈ earlier ∨ other = entry := by
        rcases outcome with ⟨rfl, known⟩ | ⟨rfl, -⟩
        · exact ⟨Or.inl, fun either => either.elim (·) fun same => same ▸ known⟩
        · simp
      obtain ⟨rfl, nodup, resolved, listed⟩ := ih onceStill rest
      refine ⟨rfl, nodup, List.forall_mem_cons.mpr ⟨⟨entry, demanded⟩, resolved⟩, fun other => ?_⟩
      have here : after.demand? id request = some other ↔ other = entry := by
        rw [demanded, Option.some.injEq, eq_comm]
      rw [listed, members, List.exists_mem_cons_iff, here, or_assoc]

/-- Requests that ask for nothing but entries of a list with each parameter once are taken up. -/
theorem on_addRequests {requests : List (ShapeTarget × PartialShape)}
    {earlier agreed : List (NodeId × PartialShape)} (once : (agreed.map Prod.fst).Nodup)
    (before : earlier ⊆ agreed)
    (asked : ∀ request ∈ requests, ∃ entry ∈ agreed, network.demand? id request = some entry) :
    ∃ shapes, (requests.foldlM (Edit.addRequest id) earlier).on network =
      (.ok shapes, network) := by
  induction requests generalizing earlier with
  | nil => exact ⟨earlier, rfl⟩
  | cons request requests ih =>
      obtain ⟨⟨entry, member, demanded⟩, rest⟩ := List.forall_mem_cons.mp asked
      have agrees (other : NodeId × PartialShape) (known : other ∈ earlier)
          (same : other.1 = entry.1) : other = entry :=
        List.inj_on_of_nodup_map once (before known) member same
      obtain ⟨extended, added⟩ := on_addRequest demanded agrees
      have stillAgreed : extended ⊆ agreed := by
        obtain ⟨-, taken, also, outcome⟩ := of_addRequest added
        obtain rfl : entry = taken := Option.some.inj (demanded.symm.trans also)
        rcases outcome with ⟨rfl, -⟩ | ⟨rfl, -⟩
        · exact before
        · exact List.append_subset.mpr ⟨before, by simpa using member⟩
      obtain ⟨shapes, collected⟩ := ih stillAgreed rest
      exact ⟨shapes, by rw [List.foldlM_cons, Edit.on_bind, added]; exact collected⟩

/-- The same requests in another order or number come to the same entries. -/
theorem addRequests_congr {requests others : List (ShapeTarget × PartialShape)}
    (same : ∀ request, request ∈ requests ↔ request ∈ others)
    {shapes : List (NodeId × PartialShape)}
    (added : (requests.foldlM (Edit.addRequest id) []).on network = (.ok shapes, after)) :
    ∃ otherShapes, (others.foldlM (Edit.addRequest id) []).on network =
      (.ok otherShapes, network) ∧ shapes.Perm otherShapes := by
  obtain ⟨-, once, resolved, listed⟩ := of_addRequests (by simp) added
  have asked (request : ShapeTarget × PartialShape) (member : request ∈ others) :
      ∃ entry ∈ shapes, network.demand? id request = some entry := by
    have also := (same request).mpr member
    obtain ⟨entry, demanded⟩ := resolved request also
    exact ⟨entry, (listed entry).mpr (Or.inr ⟨request, also, demanded⟩), demanded⟩
  obtain ⟨otherShapes, addedOthers⟩ := on_addRequests once (List.nil_subset _) asked
  obtain ⟨-, onceOthers, -, listedOthers⟩ := of_addRequests (by simp) addedOthers
  refine ⟨otherShapes, addedOthers, ?_⟩
  refine (List.perm_ext_iff_of_nodup once.of_map onceOthers.of_map).mpr fun entry => ?_
  simp only [listed, listedOthers, same]

end Collecting

end Network

/-- A node that declares another shape, if it is a parameter. -/
def Node.withShape (node : Node) (shape : PartialShape) : Node :=
  match node.operator with
  | .parameter declared => node.declare declared ({ · with shape })
  | _ => node

namespace Network

section Declaring

variable {network : Network}

/-- The network in which nodes declare the given shapes. -/
def withShapes (network : Network) (shapes : List (NodeId × PartialShape)) : Network :=
  shapes.foldl (fun network (node, shape) => network.modifyNode node (·.withShape shape)) network

theorem isParameter_withShape (node : NodeId) (shape : PartialShape) (other : NodeId) :
    (network.modifyNode node (·.withShape shape)).isParameter other =
      network.isParameter other := by
  have roles : Agree (·.operator.role) network (network.modifyNode node (·.withShape shape)) := by
    refine agree_modifyNode network node fun found => ?_
    rw [Node.withShape]
    split
    next declared parameter => rw [parameter]; rfl
    · rfl
  rw [isParameter, isParameter,
    show (network.modifyNode node (·.withShape shape)).role? other = network.role? other from
      roles other]

theorem on_declareShape_eq {node : NodeId} (isParameter : network.isParameter node)
    (shape : PartialShape) :
    (Edit.declareShape node shape).on network =
      (.ok (), network.modifyNode node (·.withShape shape)) := by
  obtain ⟨found, declared, alive, operator⟩ := isParameter_iff.mp isParameter
  have changes : network.modifyNode node (·.withShape shape) =
      network.modifyNode node (·.declare declared ({ · with shape })) :=
    modifyNode_congr alive (by rw [Node.withShape, operator])
  rw [Edit.declareShape, on_redeclare alive operator, changes]

theorem on_declareShapes_eq {shapes : List (NodeId × PartialShape)}
    (parameters : ∀ entry ∈ shapes, network.isParameter entry.1) :
    (Edit.declareShapes shapes).on network = (.ok (), network.withShapes shapes) := by
  induction shapes generalizing network with
  | nil => rfl
  | cons entry shapes ih =>
      obtain ⟨isParameter, rest⟩ := List.forall_mem_cons.mp parameters
      change (Edit.declareShape entry.1 entry.2 >>= fun _ =>
        Edit.declareShapes shapes).on network = _
      rw [Edit.on_bind, on_declareShape_eq isParameter]
      exact ih fun other member => by
        rw [isParameter_withShape]
        exact rest other member

/-- Shapes of different parameters can be declared in any order. -/
theorem withShapes_perm {shapes others : List (NodeId × PartialShape)} (perm : shapes.Perm others)
    (once : (shapes.map Prod.fst).Nodup) :
    network.withShapes shapes = network.withShapes others := by
  refine perm.foldl_eq' (fun first inFirst second inSecond network => ?_) network
  by_cases same : first.1 = second.1
  · rw [List.inj_on_of_nodup_map once inFirst inSecond same]
  · exact network.modifyNode_comm same _ _

end Declaring

section Reshaping

variable {network after : Network} {id : GraphId} {requests : List (ShapeTarget × PartialShape)}

/-- What requests are for are parameters. -/
theorem Coherent.isParameter_of_addRequests (coherent : network.Coherent)
    {shapes : List (NodeId × PartialShape)}
    (added : (requests.foldlM (Edit.addRequest id) []).on network = (.ok shapes, after)) :
    ∀ entry ∈ shapes, network.isParameter entry.1 := by
  intro entry member
  have inside : entry.1 ∈ (network.graph id).boundary .parameters :=
    (mem_of_addRequests added entry member).resolve_left (by simp)
  rw [isParameter]
  exact decide_eq_true (coherent.role?_of_mem_boundary inside)

/-- A reshape succeeds exactly if its requests can be taken together and the graph passes
validation with the shapes that they ask for. -/
theorem Coherent.on_reshape_ok_iff (coherent : network.Coherent) :
    (Edit.reshape id requests).on network = (.ok (), after) ↔
      ∃ shapes validated,
        (requests.foldlM (Edit.addRequest id) []).on network = (.ok shapes, network) ∧
        (Edit.validate id).on (network.withShapes shapes) = (.ok (), validated) ∧
        after = validated.report (.reshaped (validated.graph id).name shapes.length) := by
  constructor
  · intro accepted
    rcases resolved : (requests.foldlM (Edit.addRequest id) []).on network with
      ⟨error | shapes, start⟩
    · rw [Edit.reshape, Edit.on_bind, resolved] at accepted
      cases accepted
    · obtain ⟨rfl, -⟩ := of_addRequests (by simp) resolved
      have declares := on_declareShapes_eq (coherent.isParameter_of_addRequests resolved)
      rw [on_reshape resolved declares] at accepted
      rcases validates : (Edit.validate id).on (start.withShapes shapes) with ⟨error | _, validated⟩
      · rw [validates] at accepted
        dsimp only at accepted
        split at accepted <;> cases accepted
      · rw [validates] at accepted
        exact ⟨shapes, validated, rfl, validates, (Prod.mk.inj accepted).2.symm⟩
  · rintro ⟨shapes, validated, resolved, validates, rfl⟩
    have declares := on_declareShapes_eq (coherent.isParameter_of_addRequests resolved)
    rw [on_reshape resolved declares, validates]

/-- A reshape depends on which requests are made, but not on how often or in which order. -/
theorem Coherent.reshape_congr (coherent : network.Coherent)
    {others : List (ShapeTarget × PartialShape)}
    (same : ∀ request, request ∈ requests ↔ request ∈ others)
    (accepted : (Edit.reshape id requests).on network = (.ok (), after)) :
    (Edit.reshape id others).on network = (.ok (), after) := by
  obtain ⟨shapes, validated, resolved, validates, rfl⟩ := coherent.on_reshape_ok_iff.mp accepted
  obtain ⟨otherShapes, resolvedOthers, perm⟩ := addRequests_congr same resolved
  obtain ⟨-, once, -⟩ := of_addRequests (by simp) resolved
  rw [withShapes_perm perm once] at validates
  exact coherent.on_reshape_ok_iff.mpr
    ⟨otherShapes, validated, resolvedOthers, validates, by rw [perm.length_eq]⟩

end Reshaping

end Network
end TensorGraph
