import Mathlib
import TensorGraph.Proofs.Staleness
import TensorGraph.Proofs.Validation

/-!
# Taking the place of a node

What a node has after it was put into the place of another one.  Each output of the other
node gives its consumers away, each node that was ordered after it is redirected, and what it
was ordered after is inherited; these steps change lists that the steps before them have
changed, so what they come to is said of each list by induction over the steps.
-/

namespace TensorGraph
namespace Network

variable {network : Network} {target replacement : NodeId}

section Sources

theorem source?_rewireEach {former source : OutputPort} {inputs : List InputPort}
    (nodup : inputs.Nodup) (reads : ∀ input ∈ inputs, network.source? input = some former)
    (other : InputPort) :
    (network.rewireEach former source inputs).source? other =
      if other ∈ inputs then some source else network.source? other := by
  induction inputs generalizing network with
  | nil => rw [if_neg List.not_mem_nil, rewireEach, List.foldl_nil]
  | cons input inputs ih =>
      obtain ⟨unlisted, rest⟩ := List.nodup_cons.mp nodup
      obtain ⟨now, later⟩ := List.forall_mem_cons.mp reads
      have first := source?_rewire network now source
      have stillReads (other : InputPort) (member : other ∈ inputs) :
          (network.rewire input former source).source? other = some former := by
        rw [first, if_neg (ne_of_mem_of_not_mem member unlisted), later other member]
      rw [rewireEach_cons, ih rest stillReads, first]
      by_cases same : other = input <;> by_cases member : other ∈ inputs <;> simp [same, member]

/-- The inputs that read an output are made to read another one, except those of the node that
has the other one. -/
theorem source?_moveConsumers (linked : network.Linked) (former source : OutputPort)
    (input : InputPort) :
    (network.moveConsumers former source).source? input =
      if network.source? input = some former ∧ input.node ≠ source.node then some source
      else network.source? input := by
  rw [moveConsumers]
  split
  next same =>
    subst same
    split
    next reads => exact reads.1
    · rfl
  next different =>
    have members : input ∈ network.consumersApart former source.node ↔
        network.source? input = some former ∧ input.node ≠ source.node := by
      rw [consumersApart, List.mem_filter, linked.source?_iff, decide_eq_true_eq]
    rw [source?_touch, source?_rewireEach (linked.nodup_consumersApart former _)
      fun _ => linked.source?_of_mem_consumersApart]
    simp only [members]

/-- An input that was moved reads the replacement, so the moves for later outputs leave it. -/
theorem source?_moveOutputs (intact : network.Intact) (different : target ≠ replacement)
    {indices : List Nat} (below : ∀ index ∈ indices, index < network.outputCount replacement)
    (input : InputPort) :
    (network.moveOutputs target replacement indices).source? input =
      (network.source? input).map fun port =>
        if port.node = target ∧ port.index ∈ indices ∧ input.node ≠ replacement then
          ⟨replacement, port.index⟩
        else port := by
  induction indices generalizing network with
  | nil => simp [moveOutputs]
  | cons index indices ih =>
      obtain ⟨now, later⟩ := List.forall_mem_cons.mp below
      have still : ∀ other ∈ indices, other < (network.moveConsumers ⟨target, index⟩
          ⟨replacement, index⟩).outputCount replacement := by
        simpa only [outputCount_moveConsumers] using later
      rw [moveOutputs_cons, ih (Edit.intact_moveConsumers intact _ now) still,
        source?_moveConsumers intact.linked]
      cases network.source? input with
      | none => simp
      | some port =>
          obtain ⟨node, place⟩ := port
          by_cases ofTarget : node = target <;> by_cases here : place = index <;>
            by_cases own : input.node = replacement <;> simp [ofTarget, here, own, different.symm]

/-- Exactly the inputs that read the target, except those of the replacement, are made to read
the output of the replacement with the same index. -/
theorem source?_supersede (intact : network.Intact) (different : target ≠ replacement)
    (counts : network.outputCount target = network.outputCount replacement) (input : InputPort) :
    (network.supersede target replacement).source? input =
      (network.source? input).map fun port =>
        if port.node = target ∧ input.node ≠ replacement then ⟨replacement, port.index⟩
        else port := by
  let moved := network.moveOutputs target replacement (List.range (network.outputCount target))
  have controlled : Agree Node.sources moved (network.supersede target replacement) :=
    ((agree_foldl_redirect _ (fun _ _ _ => rfl) target replacement _).trans
      (agree_foldl_inherit _ (fun _ _ _ => rfl) replacement _)).trans (agree_touch _ _ _)
  rw [controlled.source?_eq,
    source?_moveOutputs intact different (lt_outputCount_of_mem_range counts)]
  cases reads : network.source? input with
  | none => rfl
  | some port =>
      have inRange : port.node = target → port.index < network.outputCount target := by
        rintro rfl
        exact intact.linked.lt_outputCount reads
      simp only [Option.map_some, List.mem_range]
      congr 2
      rw [eq_iff_iff]
      exact ⟨fun ⟨ofTarget, _, apart⟩ => ⟨ofTarget, apart⟩,
        fun ⟨ofTarget, apart⟩ => ⟨ofTarget, inRange ofTarget, apart⟩⟩

end Sources

section Control

theorem controlDependencies_withControl {dependent : NodeId} (alive : network.Alive dependent)
    (dependency : NodeId) :
    (network.withControl dependent dependency).controlDependencies dependent =
      network.controlDependencies dependent ++
        if dependency ∈ network.controlDependencies dependent then [] else [dependency] := by
  rw [withControl]
  split
  · rw [List.append_nil]
  · rw [controlDependencies_addControl alive, if_pos rfl]

theorem controlDependencies_withoutControl (network : Network) (dependent dependency : NodeId) :
    (network.withoutControl dependent dependency).controlDependencies dependent =
      (network.controlDependencies dependent).filter (· ≠ dependency) := by
  rw [withoutControl]
  split
  · rw [controlDependencies_removeControl, if_pos rfl]
  next absent =>
    refine (List.filter_eq_self.mpr fun other member => ?_).symm
    exact decide_eq_true (ne_of_mem_of_not_mem member absent)

/-- The list of a node that is redirected: without the target, and with the replacement in its
old place or at the end. -/
theorem controlDependencies_redirect_self (different : target ≠ replacement) {dependent : NodeId}
    (alive : network.Alive dependent) (apart : dependent ≠ replacement) :
    (redirect target replacement network dependent).controlDependencies dependent =
      (network.controlDependencies dependent).filter (· ≠ target) ++
        if replacement ∈ network.controlDependencies dependent then [] else [replacement] := by
  have names : Agree Node.name network (network.withoutControl dependent target) :=
    network.agree_withoutControl (fun _ _ _ => rfl) dependent target
  rw [redirect, if_neg apart, controlDependencies_withControl ((names.alive_iff _).mpr alive),
    controlDependencies_withoutControl]
  simp only [List.mem_filter, decide_eq_true_eq, ne_eq, different.symm, not_false_eq_true,
    and_true]

theorem controlDependencies_foldl_redirect_of_mem (different : target ≠ replacement)
    {dependents : List NodeId} (nodup : dependents.Nodup)
    (alive : ∀ dependent ∈ dependents, network.Alive dependent) {id : NodeId}
    (member : id ∈ dependents) (apart : id ≠ replacement) :
    (dependents.foldl (redirect target replacement) network).controlDependencies id =
      (network.controlDependencies id).filter (· ≠ target) ++
        if replacement ∈ network.controlDependencies id then [] else [replacement] := by
  induction dependents generalizing network with
  | nil => cases member
  | cons dependent dependents ih =>
      obtain ⟨unlisted, rest⟩ := List.nodup_cons.mp nodup
      obtain ⟨now, others⟩ := List.forall_mem_cons.mp alive
      rw [List.foldl_cons]
      rcases List.mem_cons.mp member with rfl | later
      · rw [controlDependencies_foldl_redirect (Or.inr unlisted),
          controlDependencies_redirect_self different now apart]
      · have names : Agree Node.name network (redirect target replacement network dependent) :=
          network.agree_redirect (fun _ _ _ => rfl) target replacement dependent
        rw [ih rest (fun other listed => (names.alive_iff other).mpr (others other listed)) later,
          controlDependencies_redirect (Or.inr (ne_of_mem_of_not_mem later unlisted))]

theorem controlDependencies_inherit (alive : network.Alive replacement) (dependency : NodeId) :
    (inherit replacement network dependency).controlDependencies replacement =
      network.controlDependencies replacement ++ [dependency].filter fun dependency =>
        dependency ≠ replacement ∧ dependency ∉ network.controlDependencies replacement := by
  rw [inherit]
  split
  next same => simp [same]
  next different =>
    rw [controlDependencies_withControl alive]
    split <;> simp_all

/-- The dependencies that are inherited come in turn behind those that were there. -/
theorem controlDependencies_foldl_inherit (alive : network.Alive replacement)
    {dependencies : List NodeId} (nodup : dependencies.Nodup) :
    (dependencies.foldl (inherit replacement) network).controlDependencies replacement =
      network.controlDependencies replacement ++ dependencies.filter fun dependency =>
        dependency ≠ replacement ∧ dependency ∉ network.controlDependencies replacement := by
  induction dependencies generalizing network with
  | nil => rw [List.filter_nil, List.append_nil, List.foldl_nil]
  | cons dependency dependencies ih =>
      obtain ⟨unlisted, rest⟩ := List.nodup_cons.mp nodup
      have names : Agree Node.name network (inherit replacement network dependency) :=
        network.agree_inherit (fun _ _ _ => rfl) replacement dependency
      have parts : dependency :: dependencies = [dependency] ++ dependencies := rfl
      rw [List.foldl_cons, ih ((names.alive_iff replacement).mpr alive) rest,
        filter_inherit alive unlisted, controlDependencies_inherit alive, parts,
        List.filter_append, List.append_assoc]

theorem controlDependencies_foldl_inherit_of_ne {id : NodeId} (apart : id ≠ replacement)
    (dependencies : List NodeId) :
    (dependencies.foldl (inherit replacement) network).controlDependencies id =
      network.controlDependencies id := by
  induction dependencies generalizing network with
  | nil => rfl
  | cons dependency dependencies ih =>
      rw [List.foldl_cons, ih, inherit]
      split
      · rfl
      · exact network.controlDependencies_withControl_of_ne apart dependency

/-- What each node is ordered after once a node has taken the place of another one: the
replacement inherits, and what was ordered after the target is redirected. -/
theorem controlDependencies_supersede (mirrored : network.Mirrored)
    (different : target ≠ replacement) (present : network.Alive replacement) (id : NodeId) :
    (network.supersede target replacement).controlDependencies id =
      if id = replacement then
        network.controlDependencies replacement ++
          (network.controlDependencies target).filter fun dependency =>
            dependency ≠ replacement ∧ dependency ∉ network.controlDependencies replacement
      else if target ∈ network.controlDependencies id then
        (network.controlDependencies id).filter (· ≠ target) ++
          if replacement ∈ network.controlDependencies id then [] else [replacement]
      else network.controlDependencies id := by
  let moved := network.moveOutputs target replacement (List.range (network.outputCount target))
  let redirected := moved.redirectAll target replacement
  have stays {id : NodeId} (apart : id = replacement ∨ target ∉ network.controlDependencies id) :
      redirected.controlDependencies id = network.controlDependencies id :=
    controlDependencies_redirectAll_moveOutputs mirrored _ apart
  have touched : (network.supersede target replacement).controlDependencies id =
      ((redirected.controlDependencies target).foldl
        (inherit replacement) redirected).controlDependencies id :=
    (agree_touch Node.controlDependencies _ _).elim_eq id []
  rw [touched, stays (Or.inr (mirrored.apart target))]
  by_cases isReplacement : id = replacement
  · have names : Agree Node.name network redirected :=
      network.agree_redirectAll_moveOutputs (fun _ _ _ => rfl) (fun _ _ _ => rfl) (fun _ _ => rfl)
        _ _ _
    rw [if_pos isReplacement, isReplacement,
      controlDependencies_foldl_inherit ((names.alive_iff replacement).mpr present)
        (mirrored.nodup_dependencies target), stays (Or.inl rfl)]
  rw [if_neg isReplacement, controlDependencies_foldl_inherit_of_ne isReplacement]
  by_cases depends : target ∈ network.controlDependencies id
  · have controlled : Agree controls network moved :=
      network.agree_moveOutputs (fun _ _ _ => rfl) (fun _ _ => rfl) _ _ _
    have kept : moved.Mirrored := mirrored.of_agree controlled
    have listed : id ∈ moved.controlDependents target := by
      rw [← kept.mem_iff, controlled.controlDependencies_eq]
      exact depends
    have list : redirected.controlDependencies id = _ :=
      controlDependencies_foldl_redirect_of_mem different (kept.nodup_dependents target)
        (fun _ => kept.alive_dependent) listed isReplacement
    rw [if_pos depends, list, controlled.controlDependencies_eq]
  · rw [if_neg depends, stays (Or.inr depends)]

end Control

section Names

variable (network : Network) (target replacement : NodeId)

theorem ownNames_supersede (port : OutputPort) :
    (network.supersede target replacement).ownNames port = network.ownNames port :=
  (network.agree_supersede (fun _ _ _ => rfl)
    (fun node index change => node.map_reconsume index change fun _ _ => rfl)
    (fun _ _ => rfl) target replacement).ownNames_eq port

theorem isResult_supersede (id : NodeId) :
    (network.supersede target replacement).isResult id = network.isResult id := by
  have roles : Agree (·.operator.role) network (network.supersede target replacement) :=
    network.agree_supersede (fun _ _ _ => rfl) (fun _ _ _ => rfl) (fun _ _ => rfl) _ _
  have same : (network.supersede target replacement).role? id = network.role? id := roles id
  rw [isResult, same, isResult]

theorem tensorNames_supersede {port : OutputPort}
    (noResult : network.isResult port.node = false) :
    (network.supersede target replacement).tensorNames port = network.tensorNames port := by
  have still : (network.supersede target replacement).isResult port.node = false := by
    rwa [isResult_supersede]
  rw [tensorNames_of_not_result still, tensorNames_of_not_result noResult, ownNames_supersede]

end Names

section Dependencies

/-- The node reads an output of the other one. -/
def Reads (network : Network) (id source : NodeId) : Prop :=
  ∃ index port, network.source? ⟨id, index⟩ = some port ∧ port.node = source

theorem dependsOn_iff {id dependency : NodeId} :
    network.DependsOn id dependency ↔
      network.Reads id dependency ∨ dependency ∈ network.controlDependencies id :=
  mem_dependencies_iff

variable (intact : network.Intact) (different : target ≠ replacement)
  (present : network.Alive replacement)
  (counts : network.outputCount target = network.outputCount replacement)

include intact different counts in
theorem reads_supersede_iff {id : NodeId} (apart : id ≠ replacement) (source : NodeId) :
    (network.supersede target replacement).Reads id source ↔
      network.Reads id source ∧ source ≠ target ∨
        network.Reads id target ∧ source = replacement := by
  simp only [Reads, source?_supersede intact different counts, Option.map_eq_some_iff]
  constructor
  · rintro ⟨index, _, ⟨port, found, rfl⟩, rfl⟩
    by_cases ofTarget : port.node = target
    · exact Or.inr ⟨⟨index, port, found, ofTarget⟩, by simp [ofTarget, apart]⟩
    · refine Or.inl ⟨⟨index, port, found, ?_⟩, ?_⟩ <;> simp [ofTarget]
  · rintro (⟨⟨index, port, found, rfl⟩, other⟩ | ⟨⟨index, port, found, ofTarget⟩, rfl⟩)
    · exact ⟨index, _, ⟨port, found, rfl⟩, by simp [other]⟩
    · exact ⟨index, _, ⟨port, found, rfl⟩, by simp [ofTarget, apart]⟩

include intact different present in
theorem mem_controlDependencies_supersede {id : NodeId} (apart : id ≠ replacement)
    (dependency : NodeId) :
    dependency ∈ (network.supersede target replacement).controlDependencies id ↔
      dependency ∈ network.controlDependencies id ∧ dependency ≠ target ∨
        target ∈ network.controlDependencies id ∧ dependency = replacement := by
  rw [controlDependencies_supersede intact.mirrored different present, if_neg apart]
  by_cases depends : target ∈ network.controlDependencies id
  · rw [if_pos depends]
    by_cases known : replacement ∈ network.controlDependencies id
    · rw [if_pos known, List.append_nil, List.mem_filter, decide_eq_true_eq]
      refine ⟨Or.inl, ?_⟩
      rintro (kept | ⟨-, rfl⟩)
      · exact kept
      · exact ⟨known, different.symm⟩
    · rw [if_neg known]
      simp [depends]
  · rw [if_neg depends]
    refine ⟨fun member => Or.inl ⟨member, ne_of_mem_of_not_mem member depends⟩, ?_⟩
    rintro (⟨member, -⟩ | ⟨listed, -⟩)
    · exact member
    · exact absurd listed depends

include intact different present counts

/-- Every other node depends on what it did, with the replacement in the place of the target. -/
theorem dependsOn_supersede_iff {id : NodeId} (apart : id ≠ replacement) (dependency : NodeId) :
    (network.supersede target replacement).DependsOn id dependency ↔
      network.DependsOn id dependency ∧ dependency ≠ target ∨
        network.DependsOn id target ∧ dependency = replacement := by
  rw [dependsOn_iff, dependsOn_iff, dependsOn_iff,
    reads_supersede_iff intact different counts apart,
    mem_controlDependencies_supersede intact different present apart, or_or_or_comm,
    ← or_and_right, ← or_and_right]

/-- The replacement keeps its dependencies, the target among them, and is ordered after what the
target was ordered after. -/
theorem dependsOn_supersede_self_iff (dependency : NodeId) :
    (network.supersede target replacement).DependsOn replacement dependency ↔
      network.DependsOn replacement dependency ∨
        dependency ∈ network.controlDependencies target ∧ dependency ≠ replacement := by
  have reads : (network.supersede target replacement).Reads replacement dependency ↔
      network.Reads replacement dependency := by
    simp only [Reads, source?_supersede intact different counts, ne_eq, not_true_eq_false,
      and_false, if_false, Option.map_id']
  rw [dependsOn_iff, dependsOn_iff, reads,
    controlDependencies_supersede intact.mirrored different present, if_pos rfl, List.mem_append,
    List.mem_filter, decide_eq_true_eq, or_assoc]
  by_cases known : dependency ∈ network.controlDependencies replacement <;> simp [known]

/-- Once a node has taken the place of another one, no node but it depends on the other. -/
theorem not_mem_dependencies_supersede {id : NodeId} (apart : id ≠ replacement) :
    target ∉ (network.supersede target replacement).dependencies id := by
  intro depends
  rcases (dependsOn_supersede_iff intact different present counts apart target).mp depends with
    ⟨-, other⟩ | ⟨-, same⟩
  · exact other rfl
  · exact different same

end Dependencies

end Network

theorem Network.Stales.frame_eq {before after : Network} {nodes : List NodeId}
    (stales : Stales nodes before after) (id : GraphId) :
    (after.graph? id).map Graph.frame = (before.graph? id).map Graph.frame := by
  rw [stales.graph?, Option.map_map]
  congr 1
  funext graph
  rw [Function.comp_apply]
  split <;> rfl

namespace Session

open Network

variable {session : Session}

/-- A node that has taken the place of another one feeds all that the other one fed outside it,
each node that was ordered after the other one is ordered after it instead, and it is newly
ordered after what the other one was ordered after.  The other one keeps its control
dependencies and all inputs that it did not feed itself, every output keeps its own names, and
every tensor that is not given out by a result is named as before. -/
theorem Reachable.replacement_takes_over (reachable : session.Reachable)
    {target replacement : NodeId} (different : target ≠ replacement) {after : Network}
    (accepted : (Edit.replaceNode target replacement).on session.network = (.ok (), after)) :
    (∀ input, after.source? input = (session.network.source? input).map fun port =>
      if port.node = target ∧ input.node ≠ replacement then ⟨replacement, port.index⟩
      else port) ∧
    (∀ id, id ≠ replacement →
      (target ∈ session.network.controlDependencies id →
        after.controlDependencies id =
          (session.network.controlDependencies id).filter (· ≠ target) ++
            (if replacement ∈ session.network.controlDependencies id then []
              else [replacement]) ∧
        (after.controlDependencies id).count replacement = 1) ∧
      (target ∉ session.network.controlDependencies id →
        after.controlDependencies id = session.network.controlDependencies id)) ∧
    after.controlDependencies replacement =
      session.network.controlDependencies replacement ++
        (session.network.controlDependencies target).filter (fun dependency =>
          dependency ≠ replacement ∧
            dependency ∉ session.network.controlDependencies replacement) ∧
    (after.controlDependencies target = session.network.controlDependencies target ∧
      (∀ index port, session.network.source? ⟨target, index⟩ = some port →
        port.node ≠ target → after.source? ⟨target, index⟩ = some port) ∧
      (∀ port, after.ownNames port = session.network.ownNames port) ∧
      (∀ port, session.network.isResult port.node = false →
        after.tensorNames port = session.network.tensorNames port) ∧
      ∀ id, (after.graph? id).map Graph.frame = (session.network.graph? id).map Graph.frame) ∧
    ∀ id, id ≠ replacement → target ∉ after.dependencies id := by
  have intact := reachable.intact
  obtain ⟨⟨alive, present⟩, fits⟩ :=
    (Edit.replaceNode_ok_iff intact).mp (congrArg Prod.fst accepted)
  obtain ⟨noResult, counts⟩ := fits different
  have mirroredAfter : after.Mirrored :=
    intact.mirrored.of_moves (Edit.moves_of_on (Edit.follows_replaceNode _ _) accepted)
  rw [Edit.on_replaceNode intact alive present, if_neg different, if_neg (by simp [noResult]),
    if_pos counts] at accepted
  obtain ⟨-, rfl⟩ := Prod.mk.inj accepted
  have sources := source?_supersede intact different counts
  have lists := controlDependencies_supersede intact.mirrored different present
  have unlisted {id : NodeId} (apart : id ≠ replacement)
      (free : target ∉ session.network.controlDependencies id) :
      (session.network.supersede target replacement).controlDependencies id =
        session.network.controlDependencies id := by
    rw [lists, if_neg apart, if_neg free]
  refine ⟨sources, fun id apart => ⟨fun depends => ?_, unlisted apart⟩, ?_,
    ⟨?_, ?_, ownNames_supersede _ _ _, fun _ => tensorNames_supersede _ _ _, ?_⟩, ?_⟩
  · have list := lists id
    rw [if_neg apart, if_pos depends] at list
    refine ⟨list, List.count_eq_one_of_mem (mirroredAfter.nodup_dependencies id) ?_⟩
    rw [list, List.mem_append]
    by_cases known : replacement ∈ session.network.controlDependencies id
    · exact Or.inl (List.mem_filter.mpr ⟨known, decide_eq_true different.symm⟩)
    · simp [known]
  · rw [lists, if_pos rfl]
  · exact unlisted different (intact.mirrored.apart target)
  · intro index port reads other
    rw [sources, reads, Option.map_some, if_neg fun both => other both.1]
  · exact (stales_supersede intact.mirrored different present counts).frame_eq
  · exact fun id apart => not_mem_dependencies_supersede intact different present counts apart

/-- A rectifier and one that reads it, each ordered after the other, with a concatenation that
reads the first twice, is ordered after both and comes before the first. -/
def entangled : Session :=
  empty.run [
    .create (.parameter { elementType := .f32, shape := .fixed [2, 3] }) [] none (.text "feed"),
    .create .relu [⟨1, 0⟩] none (.text "target"),
    .create .relu [⟨2, 0⟩] none (.text "replacement"),
    .create (.concat 0) [⟨2, 0⟩, ⟨1, 0⟩, ⟨2, 0⟩] none (.text "joint"),
    .addControlDependency 2 1, .addControlDependency 2 4, .addControlDependency 2 3,
    .addControlDependency 3 2, .addControlDependency 3 1,
    .addControlDependency 4 3, .addControlDependency 4 2]

theorem entangled_reachable : entangled.Reachable :=
  ⟨_, rfl⟩

theorem edges_entangled :
    ((Edit.replaceNode 2 3).on entangled.network).1 = .ok () ∧
    entangled.network.controlDependencies 2 = [1, 4, 3] ∧
    entangled.network.controlDependencies 3 = [2, 1] ∧
    entangled.network.controlDependencies 4 = [3, 2] ∧
    entangled.network.source? ⟨4, 2⟩ = some ⟨2, 0⟩ ∧
    entangled.network.source? ⟨3, 0⟩ = some ⟨2, 0⟩ := by
  cbv

theorem takeover_entangled :
    ∃ after, (Edit.replaceNode 2 3).on entangled.network = (.ok (), after) ∧
      after.source? ⟨4, 2⟩ = some ⟨3, 0⟩ ∧ after.source? ⟨3, 0⟩ = some ⟨2, 0⟩ ∧
      after.controlDependencies 4 = [3] ∧ after.controlDependencies 3 = [2, 1, 4] ∧
      after.controlDependencies 2 = [1, 4, 3] ∧ 2 ∉ after.dependencies 4 := by
  obtain ⟨accepted, ofTarget, ofReplacement, ofJoint, jointReads, replacementReads⟩ :=
    edges_entangled
  rcases outcome : (Edit.replaceNode 2 3).on entangled.network with ⟨result, after⟩
  obtain rfl : result = .ok () := (congrArg Prod.fst outcome).symm.trans accepted
  obtain ⟨sources, others, inherits, ⟨kept, -⟩, free⟩ :=
    entangled_reachable.replacement_takes_over (by decide) outcome
  refine ⟨after, rfl, ?_, ?_, ?_, ?_, kept.trans ofTarget, free 4 (by decide)⟩
  · rw [sources, jointReads]
    rfl
  · rw [sources, replacementReads]
    rfl
  · rw [((others 4 (by decide)).1 (by simp [ofJoint])).1, ofJoint]
    decide
  · rw [inherits, ofReplacement, ofTarget]
    decide

/-- A rectifier that was made to read itself, with a name, a result that reads it, and another
rectifier. -/
def selfFed : Session :=
  empty.run [
    .create (.parameter { elementType := .f32, shape := .fixed [2, 3] }) [] none (.text "feed"),
    .create .relu [⟨1, 0⟩] none (.text "target"),
    .create .relu [⟨1, 0⟩] none (.text "replacement"),
    .create .result [⟨2, 0⟩] none (.text "outcome"),
    .setSource ⟨2, 0⟩ ⟨2, 0⟩,
    .setNames ⟨2, 0⟩ ["former"]]

theorem replaced_selfFed :
    ((Edit.replaceNode 2 3).on selfFed.network).1 = .ok () ∧
    selfFed.network.source? ⟨2, 0⟩ = some ⟨2, 0⟩ ∧
    selfFed.network.tensorNames ⟨4, 0⟩ = ["former"] ∧
    ((Edit.replaceNode 2 3).on selfFed.network).2.source? ⟨2, 0⟩ = some ⟨3, 0⟩ ∧
    ((Edit.replaceNode 2 3).on selfFed.network).2.tensorNames ⟨4, 0⟩ = [] := by
  cbv

/-- A target that reads itself is one of its own consumers, so an input of its own is moved; and
a result that read the target gives out the names of another tensor after that. -/
theorem own_input_moved_selfFed :
    selfFed.Reachable ∧ (2 : NodeId) ≠ 3 ∧
    ((Edit.replaceNode 2 3).on selfFed.network).1 = .ok () ∧
    ¬ (∀ index, ((Edit.replaceNode 2 3).on selfFed.network).2.source? ⟨2, index⟩ =
      selfFed.network.source? ⟨2, index⟩) ∧
    ¬ ∀ port, ((Edit.replaceNode 2 3).on selfFed.network).2.tensorNames port =
      selfFed.network.tensorNames port := by
  obtain ⟨accepted, read, named, reads, unnamed⟩ := replaced_selfFed
  refine ⟨⟨_, rfl⟩, by decide, accepted, fun same => ?_, fun same => ?_⟩
  · have moved := same 0
    rw [read, reads] at moved
    cases moved
  · have renamed := same ⟨4, 0⟩
    rw [named, unnamed] at renamed
    cases renamed

end Session
end TensorGraph
