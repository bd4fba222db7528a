import TensorGraph.Proofs.Mutations

/-!
# What a mutation makes stale

A mutation touches certain nodes, and exactly the graphs that know one of them become stale;
nothing else changes about graphs and memberships.  Mutations that are made of several edits
touch what their parts touch, and the nodes that take part in all of them are touched once
more at the end.
-/

namespace TensorGraph
namespace Network

/-- Exactly the graphs that know one of the nodes become stale, and nothing else changes about
graphs and about who knows them. -/
structure Stales (nodes : List NodeId) (before after : Network) : Prop where
  memberships : ∀ id, after.memberships id = before.memberships id
  graphs : ∀ id, after.graphs.get? id = (before.graphs.get? id).map fun record =>
    if ∃ node ∈ nodes, id ∈ before.memberships node then record.stale else record

namespace Stales

variable {before between after : Network} {nodes others : List NodeId}

theorem of_same (memberships : ∀ id, after.memberships id = before.memberships id)
    (graphs : after.graphs = before.graphs) : Stales [] before after where
  memberships := memberships
  graphs id := by
    rw [graphs]
    simp

theorem refl (network : Network) : Stales [] network network :=
  .of_same (fun _ => rfl) rfl

theorem graph? (stales : Stales nodes before after) (id : GraphId) :
    after.graph? id = (before.graph? id).map fun graph =>
      if ∃ node ∈ nodes, id ∈ before.memberships node then { graph with isFresh := false }
      else graph :=
  graph?_of_stale (stales.graphs id)

theorem congr (stales : Stales nodes before after) (same : ∀ node, node ∈ nodes ↔ node ∈ others) :
    Stales others before after where
  memberships := stales.memberships
  graphs id := by
    rw [stales.graphs id]
    simp only [same]

theorem trans (first : Stales nodes before between) (second : Stales others between after) :
    Stales (nodes ++ others) before after where
  memberships id := (second.memberships id).trans (first.memberships id)
  graphs id := by
    rw [second.graphs, first.graphs, Option.map_map]
    congr 1
    funext record
    simp only [first.memberships, List.mem_append, or_and_right, exists_or, Function.comp_apply]
    by_cases now : ∃ node ∈ nodes, id ∈ before.memberships node <;>
      by_cases later : ∃ node ∈ others, id ∈ before.memberships node <;> simp [now, later]

theorem touch (stales : Stales nodes before between) (others : List NodeId) :
    Stales (nodes ++ others) before (between.touch others) := by
  refine stales.trans ⟨fun id => ?_, fun id => get?_touch between id others⟩
  exact (agree_touch Node.memberships between others).elim_eq id []

end Stales

/-- What an edit of edges touches becomes stale. -/
theorem Touches.stales {before after : Network} {nodes : List NodeId}
    (touches : Touches nodes before after) : Stales nodes before after := by
  obtain ⟨between, memberships, same, rfl⟩ := touches
  have quiet : Stales [] before between :=
    .of_same (fun id => memberships.elim_eq id []) (congrArg Prod.fst same)
  exact quiet.touch nodes

section Edges

variable (network : Network)

theorem stales_rewire (input : InputPort) (former source : OutputPort) :
    Stales [input.node, former.node, source.node] network (network.rewire input former source) :=
  (network.touches_rewire input former source).stales

theorem stales_rewireAll (id : NodeId) (former sources : List OutputPort) :
    Stales (id :: (former.map (·.node) ++ sources.map (·.node))) network
      (network.rewireAll id former sources) :=
  (network.touches_rewireAll id former sources).stales

theorem stales_addControl (dependent dependency : NodeId) :
    Stales [dependent, dependency] network (network.addControl dependent dependency) :=
  (network.touches_addControl dependent dependency).stales

theorem stales_removeControl (dependent dependency : NodeId) :
    Stales [dependent, dependency] network (network.removeControl dependent dependency) :=
  (network.touches_removeControl dependent dependency).stales

theorem stales_clearControl (dependent : NodeId) (former : List NodeId) :
    Stales (dependent :: former) network (network.clearControl dependent former) :=
  (network.touches_clearControl dependent former).stales

theorem stales_withControl (dependent dependency : NodeId) :
    Stales (if dependency ∈ network.controlDependencies dependent then []
      else [dependent, dependency]) network (network.withControl dependent dependency) := by
  rw [withControl]
  split
  · exact .refl network
  · exact network.stales_addControl dependent dependency

theorem stales_withoutControl (dependent dependency : NodeId) :
    Stales (if dependency ∈ network.controlDependencies dependent then [dependent, dependency]
      else []) network (network.withoutControl dependent dependency) := by
  rw [withoutControl]
  split
  · exact network.stales_removeControl dependent dependency
  · exact .refl network

end Edges

/-- Exactly the graphs that know one of the nodes become stale, apart from graphs that know
one of the ends, which may become stale or not. -/
def StalesBeside (ends nodes : List NodeId) (before after : Network) : Prop :=
  ∃ touched, Stales touched before after ∧ ∀ node, node ∉ ends → (node ∈ touched ↔ node ∈ nodes)

namespace StalesBeside

variable {before between after : Network} {ends nodes others : List NodeId}

theorem refl (ends : List NodeId) (network : Network) : StalesBeside ends [] network network :=
  ⟨[], .refl network, fun _ _ => .rfl⟩

theorem of_stales {touched : List NodeId} (stales : Stales touched before after)
    (same : ∀ node, node ∉ ends → (node ∈ touched ↔ node ∈ nodes)) :
    StalesBeside ends nodes before after :=
  ⟨touched, stales, same⟩

theorem trans (first : StalesBeside ends nodes before between)
    (second : StalesBeside ends others between after) :
    StalesBeside ends (nodes ++ others) before after := by
  obtain ⟨now, staled, same⟩ := first
  obtain ⟨later, staledLater, sameLater⟩ := second
  refine ⟨now ++ later, staled.trans staledLater, fun node apart => ?_⟩
  rw [List.mem_append, List.mem_append, same node apart, sameLater node apart]

/-- The ends are touched after all. -/
theorem touch (stales : StalesBeside ends nodes before between) :
    Stales (nodes ++ ends) before (between.touch ends) := by
  obtain ⟨touched, staled, same⟩ := stales
  refine (staled.touch ends).congr fun node => ?_
  rw [List.mem_append, List.mem_append]
  by_cases atEnd : node ∈ ends
  · simp [atEnd]
  · rw [same node atEnd]

end StalesBeside

section Consumers

variable (network : Network)

theorem stales_rewireEach (former source : OutputPort) (inputs : List InputPort) :
    StalesBeside [former.node, source.node] (inputs.map (·.node)) network
      (network.rewireEach former source inputs) := by
  induction inputs generalizing network with
  | nil => exact .refl _ network
  | cons input inputs ih =>
      rw [rewireEach_cons]
      have first : StalesBeside [former.node, source.node] [input.node] network
          (network.rewire input former source) := by
        refine .of_stales (network.stales_rewire input former source) fun node apart => ?_
        simp_all
      exact first.trans (ih _)

theorem stales_moveConsumers {former source : OutputPort} (different : former ≠ source) :
    Stales ((network.consumersApart former source.node).map (·.node) ++ [former.node, source.node])
      network (network.moveConsumers former source) := by
  rw [moveConsumers, if_neg different]
  exact (network.stales_rewireEach former source _).touch

theorem consumers_rewireEach_of_ne {network : Network} {former source port : OutputPort}
    (valid : source.index < network.outputCount source.node) (notFormer : former ≠ port)
    (notSource : source ≠ port) (inputs : List InputPort) :
    (network.rewireEach former source inputs).consumers port = network.consumers port := by
  induction inputs generalizing network with
  | nil => rfl
  | cons input inputs ih =>
      rw [rewireEach_cons, ih (by rwa [outputCount_rewire]), consumers_rewire input former valid,
        if_neg notFormer, if_neg notSource, List.append_nil]

theorem consumers_moveConsumers_of_ne {network : Network} {former source port : OutputPort}
    (valid : source.index < network.outputCount source.node) (notFormer : former ≠ port)
    (notSource : source ≠ port) :
    (network.moveConsumers former source).consumers port = network.consumers port := by
  rw [moveConsumers]
  split
  · rfl
  · rw [consumers_touch, consumers_rewireEach_of_ne valid notFormer notSource]

/-- Each output gives its own consumers away, whatever was done to the outputs before it. -/
theorem stales_moveOutputs {network : Network} {target replacement : NodeId}
    (different : target ≠ replacement) {indices : List Nat} (nodup : indices.Nodup)
    (valid : ∀ index ∈ indices, index < network.outputCount replacement) :
    StalesBeside [target, replacement]
      (indices.flatMap fun index =>
        (network.consumersApart ⟨target, index⟩ replacement).map (·.node))
      network (network.moveOutputs target replacement indices) := by
  induction indices generalizing network with
  | nil => exact .refl _ network
  | cons index indices ih =>
      obtain ⟨unlisted, rest⟩ := List.nodup_cons.mp nodup
      obtain ⟨now, later⟩ := List.forall_mem_cons.mp valid
      have apart : (⟨target, index⟩ : OutputPort) ≠ ⟨replacement, index⟩ :=
        fun same => different (congrArg OutputPort.node same)
      have first : StalesBeside [target, replacement]
          ((network.consumersApart ⟨target, index⟩ replacement).map (·.node)) network
          (network.moveConsumers ⟨target, index⟩ ⟨replacement, index⟩) :=
        .of_stales (network.stales_moveConsumers apart) fun node atNoEnd => by
          rw [List.mem_append, or_iff_left atNoEnd]
      have same : (indices.flatMap fun other => ((network.moveConsumers ⟨target, index⟩
          ⟨replacement, index⟩).consumersApart ⟨target, other⟩ replacement).map (·.node)) =
          indices.flatMap fun other =>
            (network.consumersApart ⟨target, other⟩ replacement).map (·.node) := by
        refine List.flatMap_congr fun other member => ?_
        have notIndex : index ≠ other := (ne_of_mem_of_not_mem member unlisted).symm
        rw [consumersApart, consumers_moveConsumers_of_ne now (by simpa using notIndex)
          (by simpa using fun same => absurd same.symm different), consumersApart]
      rw [moveOutputs_cons, List.flatMap_cons, ← same]
      exact first.trans (ih rest (by simpa only [outputCount_moveConsumers] using later))

end Consumers

section Control

variable {network : Network} {target replacement : NodeId}

theorem controlDependencies_addControl_of_ne (network : Network) {dependent id : NodeId}
    (different : id ≠ dependent) (dependency : NodeId) :
    (network.addControl dependent dependency).controlDependencies id =
      network.controlDependencies id := by
  have backward (forward : Network) : Agree Node.controlDependencies forward
      (forward.modifyNode dependency fun node =>
        { node with controlDependents := node.controlDependents ++ [dependent] }) :=
    agree_modifyNode forward dependency fun _ => rfl
  rw [addControl, controlDependencies, node?_touch, (backward _).elim_eq id [], node?_modifyNode,
    if_neg (Ne.symm different), controlDependencies]

theorem controlDependencies_withControl_of_ne (network : Network) {dependent id : NodeId}
    (different : id ≠ dependent) (dependency : NodeId) :
    (network.withControl dependent dependency).controlDependencies id =
      network.controlDependencies id := by
  rw [withControl]
  split
  · rfl
  · exact network.controlDependencies_addControl_of_ne different dependency

theorem controlDependencies_withoutControl_of_ne (network : Network) {dependent id : NodeId}
    (different : id ≠ dependent) (dependency : NodeId) :
    (network.withoutControl dependent dependency).controlDependencies id =
      network.controlDependencies id := by
  rw [withoutControl]
  split
  · rw [controlDependencies_removeControl, if_neg different]
  · rfl

theorem controlDependencies_redirect {dependent id : NodeId}
    (apart : id = replacement ∨ id ≠ dependent) :
    (redirect target replacement network dependent).controlDependencies id =
      network.controlDependencies id := by
  rw [redirect]
  split
  · rfl
  next other =>
    have different : id ≠ dependent := apart.elim (fun same => same ▸ Ne.symm other) fun ne => ne
    rw [controlDependencies_withControl_of_ne _ different,
      controlDependencies_withoutControl_of_ne _ different]

theorem controlDependencies_foldl_redirect {dependents : List NodeId} {id : NodeId}
    (apart : id = replacement ∨ id ∉ dependents) :
    (dependents.foldl (redirect target replacement) network).controlDependencies id =
      network.controlDependencies id := by
  induction dependents generalizing network with
  | nil => rfl
  | cons dependent dependents ih =>
      simp only [List.mem_cons, not_or] at apart
      rw [List.foldl_cons, ih (apart.imp_right And.right),
        controlDependencies_redirect (apart.imp_right And.left)]

/-- Redirecting leaves the replacement, and what is not ordered after the target, as it is. -/
theorem controlDependencies_redirectAll_moveOutputs (mirrored : network.Mirrored)
    (indices : List Nat) {id : NodeId}
    (apart : id = replacement ∨ target ∉ network.controlDependencies id) :
    ((network.moveOutputs target replacement indices).redirectAll
      target replacement).controlDependencies id = network.controlDependencies id := by
  have controlled : Agree controls network (network.moveOutputs target replacement indices) :=
    network.agree_moveOutputs (fun _ _ _ => rfl) (fun _ _ => rfl) _ _ _
  have unlisted : id = replacement ∨ id ∉ network.controlDependents target :=
    apart.imp_right fun free listed => free ((mirrored.mem_iff id target).mpr listed)
  rw [redirectAll, controlled.controlDependents_eq, controlDependencies_foldl_redirect unlisted,
    controlled.controlDependencies_eq]

theorem stales_redirect {dependent : NodeId}
    (edge : target ∈ network.controlDependencies dependent) :
    StalesBeside [target, replacement] [dependent] network
      (redirect target replacement network dependent) := by
  rw [redirect]
  split
  next same =>
    refine .of_stales (.refl network) fun node atNoEnd => ?_
    simp_all
  next different =>
    have removed := network.stales_withoutControl dependent target
    rw [if_pos edge] at removed
    refine .of_stales (removed.trans (stales_withControl _ dependent replacement)) ?_
    intro node atNoEnd
    split <;> simp_all

theorem stales_foldl_redirect {dependents : List NodeId} (nodup : dependents.Nodup)
    (edges : ∀ dependent ∈ dependents, target ∈ network.controlDependencies dependent) :
    StalesBeside [target, replacement] dependents network
      (dependents.foldl (redirect target replacement) network) := by
  induction dependents generalizing network with
  | nil => exact .refl _ network
  | cons dependent dependents ih =>
      obtain ⟨unlisted, rest⟩ := List.nodup_cons.mp nodup
      obtain ⟨now, later⟩ := List.forall_mem_cons.mp edges
      rw [List.foldl_cons]
      refine (stales_redirect now).trans (ih rest fun other member => ?_)
      rw [controlDependencies_redirect (Or.inr (ne_of_mem_of_not_mem member unlisted))]
      exact later other member

/-- Whether a node is still to be inherited does not depend on which others were before it. -/
theorem mem_controlDependencies_inherit (alive : network.Alive replacement)
    {dependency other : NodeId} (different : other ≠ dependency) :
    other ∈ (inherit replacement network dependency).controlDependencies replacement ↔
      other ∈ network.controlDependencies replacement := by
  rw [inherit, withControl]
  split
  · rfl
  · split
    · rfl
    · rw [controlDependencies_addControl alive, if_pos rfl, List.mem_append, List.mem_singleton,
        or_iff_left different]

theorem filter_inherit (alive : network.Alive replacement) {dependency : NodeId}
    {dependencies : List NodeId} (unlisted : dependency ∉ dependencies) :
    (dependencies.filter fun other => other ≠ replacement ∧
      other ∉ (inherit replacement network dependency).controlDependencies replacement) =
      dependencies.filter fun other =>
        other ≠ replacement ∧ other ∉ network.controlDependencies replacement := by
  refine List.filter_congr fun other member => ?_
  simp only [mem_controlDependencies_inherit alive (ne_of_mem_of_not_mem member unlisted)]

theorem stales_inherit (dependency : NodeId) :
    StalesBeside [target, replacement]
      ([dependency].filter fun dependency =>
        dependency ≠ replacement ∧ dependency ∉ network.controlDependencies replacement)
      network (inherit replacement network dependency) := by
  rw [inherit]
  split
  next same =>
    refine .of_stales (.refl network) fun node _ => ?_
    simp [same]
  next different =>
    refine .of_stales (network.stales_withControl replacement dependency) fun node atNoEnd => ?_
    split <;> simp_all

theorem stales_foldl_inherit (alive : network.Alive replacement) {dependencies : List NodeId}
    (nodup : dependencies.Nodup) :
    StalesBeside [target, replacement]
      (dependencies.filter fun dependency =>
        dependency ≠ replacement ∧ dependency ∉ network.controlDependencies replacement)
      network (dependencies.foldl (inherit replacement) network) := by
  induction dependencies generalizing network with
  | nil => exact .refl _ network
  | cons dependency dependencies ih =>
      obtain ⟨unlisted, rest⟩ := List.nodup_cons.mp nodup
      have names : Agree Node.name network (inherit replacement network dependency) :=
        network.agree_inherit (fun _ _ _ => rfl) replacement dependency
      have parts : dependency :: dependencies = [dependency] ++ dependencies := rfl
      rw [List.foldl_cons, parts, List.filter_append, ← filter_inherit alive unlisted]
      exact (stales_inherit dependency).trans (ih ((names.alive_iff replacement).mpr alive) rest)

end Control

/-- The nodes that are touched when a node is put into the place of another, apart from these
two: the consumers that are moved, the nodes that were ordered after the target, and those
that the replacement is newly ordered after. -/
def concerned (network : Network) (target replacement : NodeId) : List NodeId :=
  (List.range (network.outputCount target)).flatMap (fun index =>
      (network.consumersApart ⟨target, index⟩ replacement).map (·.node)) ++
    network.controlDependents target ++
    (network.controlDependencies target).filter fun dependency =>
      dependency ≠ replacement ∧ dependency ∉ network.controlDependencies replacement

theorem stales_supersede {network : Network} (mirrored : network.Mirrored)
    {target replacement : NodeId} (different : target ≠ replacement)
    (present : network.Alive replacement)
    (counts : network.outputCount target = network.outputCount replacement) :
    Stales (network.concerned target replacement ++ [target, replacement]) network
      (network.supersede target replacement) := by
  let moved := network.moveOutputs target replacement (List.range (network.outputCount target))
  let redirected := moved.redirectAll target replacement
  have first := stales_moveOutputs different List.nodup_range (lt_outputCount_of_mem_range counts)
  have controlled : Agree controls network moved :=
    network.agree_moveOutputs (fun _ _ _ => rfl) (fun _ _ => rfl) _ _ _
  have kept : moved.Mirrored := mirrored.of_agree controlled
  have second : StalesBeside [target, replacement] (moved.controlDependents target) moved
      redirected :=
    stales_foldl_redirect (kept.nodup_dependents target) fun dependent member =>
      (kept.mem_iff dependent target).mpr member
  have ofTarget : redirected.controlDependencies target = network.controlDependencies target :=
    controlDependencies_redirectAll_moveOutputs mirrored _ (Or.inr (mirrored.apart target))
  have ofReplacement :
      redirected.controlDependencies replacement = network.controlDependencies replacement :=
    controlDependencies_redirectAll_moveOutputs mirrored _ (Or.inl rfl)
  have names : Agree Node.name network redirected :=
    network.agree_redirectAll_moveOutputs (fun _ _ _ => rfl) (fun _ _ _ => rfl) (fun _ _ => rfl)
      _ _ _
  have nodup : (redirected.controlDependencies target).Nodup := by
    rw [ofTarget]
    exact mirrored.nodup_dependencies target
  have third : StalesBeside [target, replacement] _ redirected
      (redirected.inheritAll target replacement) :=
    stales_foldl_inherit ((names.alive_iff replacement).mpr present) nodup
  rw [ofReplacement, ofTarget] at third
  rw [controlled.controlDependents_eq] at second
  rw [concerned, supersede]
  exact ((first.trans second).trans third).touch

end Network
end TensorGraph
