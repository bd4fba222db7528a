import TensorGraph.Proofs.Ages
import TensorGraph.Proofs.Handles

/-!
# What is left of dropped graphs

What a graph shared with its nodes is still there after the graph was dropped while a handle
holds it, and no longer.  Only a session drops a graph and leaves something of it; what commands
do to the network otherwise leaves no more of dropped graphs than there was.
-/

namespace TensorGraph

namespace Network

/-- Nothing more is left of dropped graphs than before. -/
def RetainsNoMore (before after : Network) : Prop :=
  ∀ id, before.retained? id = none → after.retained? id = none

instance : IsPreorder Network RetainsNoMore where
  refl _ _ nothing := nothing
  trans _ _ _ first second id nothing := second id (first id nothing)

variable (network : Network)

theorem KeepsGraphs.retainsNoMore {before after : Network} (keeps : KeepsGraphs before after) :
    RetainsNoMore before after :=
  fun id nothing => (retained?_eq_of_graphs keeps id).trans nothing

theorem retainsNoMore_modifyGraph (id : GraphId) (change : Graph → Graph) :
    RetainsNoMore network (network.modifyGraph id change) :=
  fun other nothing => (network.retained?_modifyGraph other id change).trans nothing

theorem retainsNoMore_storeSchedule (id : GraphId) (schedule : List NodeId) :
    RetainsNoMore network (network.storeSchedule id schedule) := by
  intro other nothing
  rw [retained?, graphs_storeSchedule]
  exact network.retainsNoMore_modifyGraph id _ other nothing

theorem retainsNoMore_addGraph (graph : Graph) :
    RetainsNoMore network (network.addGraph graph) := by
  intro id nothing
  rw [retained?, addGraph, Store.get?_push]
  split
  · rfl
  · exact nothing

theorem retainsNoMore_dropGraph (id : GraphId) : RetainsNoMore network (network.dropGraph id) := by
  intro other nothing
  rw [retained?_dropGraph, nothing, ite_self]

/-- An edit of edges leaves graphs alone until it touches nodes. -/
theorem Touches.retainsNoMore {nodes : List NodeId} {before after : Network}
    (touches : Touches nodes before after) : RetainsNoMore before after := by
  obtain ⟨between, -, same, rfl⟩ := touches
  intro id nothing
  rw [retained?_touch, retained?_eq_of_graphs (congrArg Prod.fst same), nothing, Option.map_none]

theorem retainsNoMore_modifyBoundary (id : GraphId) (part : Boundary)
    (change : List NodeId → List NodeId) : RetainsNoMore network
      ((network.modifyGraph id (·.modifyBoundary part change)).touchBoundary id) := by
  have modified := network.retainsNoMore_modifyGraph id (·.modifyBoundary part change)
  refine trans_of RetainsNoMore modified ?_
  rw [touchBoundary]
  refine trans_of RetainsNoMore ?_ (retainsNoMore_modifyGraph _ id _)
  split
  · exact retainsNoMore_modifyGraph _ id _
  · exact refl_of RetainsNoMore _

end Network

namespace Edit

open Network

theorem Within.retainsNoMore {α : Type} {edit : Edit α} (keeps : edit.Within KeepsGraphs) :
    edit.Within RetainsNoMore :=
  fun network => (keeps network).retainsNoMore

theorem retainsNoMore_schedule (id : GraphId) : (schedule id).Within RetainsNoMore :=
  within_schedule (fun network => network.retainsNoMore_modifyGraph id _)
    (retainsNoMore_storeSchedule · id)

theorem edgeKeeping_retainsNoMore : EdgeKeeping RetainsNoMore where
  created _ _ _ := (nodeKeeping_keepsGraphs.created _ _ _).retainsNoMore
  inferred _ := (nodeKeeping_keepsGraphs.inferred _).retainsNoMore
  redeclared _ _ _ := (nodeKeeping_keepsGraphs.redeclared _ _ _).retainsNoMore
  renamed _ _ := (nodeKeeping_keepsGraphs.renamed _ _).retainsNoMore
  namesSet _ _ := (nodeKeeping_keepsGraphs.namesSet _ _).retainsNoMore
  namesAdded _ _ := (nodeKeeping_keepsGraphs.namesAdded _ _).retainsNoMore
  reported _ := (nodeKeeping_keepsGraphs.reported _).retainsNoMore
  scheduled := retainsNoMore_schedule
  graphCreated := within_createGraph retainsNoMore_addGraph retainsNoMore_schedule
    retainsNoMore_dropGraph fun _ => (nodeKeeping_keepsGraphs.reported _).retainsNoMore
  graphRenamed id _ := within_change fun network => network.retainsNoMore_modifyGraph id _
  graphDropped := retainsNoMore_dropGraph

theorem edgeEditing_retainsNoMore : EdgeEditing RetainsNoMore :=
  .of_touches Touches.retainsNoMore

end Edit

namespace Table

variable {γ : Type} {table : Table γ} {handle : String} {value : γ}

/-- No handle occurs twice. -/
def Distinct (table : Table γ) : Prop :=
  (table.entries.map Prod.fst).Nodup

theorem Distinct.erase (distinct : table.Distinct) (handle : String) :
    (table.erase handle).Distinct :=
  distinct.sublist (List.filter_sublist.map _)

theorem Distinct.insert (distinct : table.Distinct) (handle : String) (value : γ) :
    (table.insert handle value).Distinct := by
  rw [Distinct, Table.insert, List.map_append]
  refine (distinct.erase handle).append (List.nodup_singleton handle) fun other former new => ?_
  obtain ⟨entry, listed, rfl⟩ := List.mem_map.mp former
  exact of_decide_eq_true (List.mem_filter.mp listed).2 (List.mem_singleton.mp new)

/-- A value that is lost with a handle is the one that the handle had. -/
theorem Distinct.mem_values_erase (distinct : table.Distinct) (handle : String)
    (member : value ∈ table.values) :
    value ∈ (table.erase handle).values ∨ table.get? handle = some value := by
  obtain ⟨⟨other, _⟩, listed, rfl⟩ := List.mem_map.mp member
  by_cases same : other = handle
  · subst same
    refine Or.inr ?_
    cases found : table.entries.find? (·.1 = other) with
    | none => simpa using List.find?_eq_none.mp found _ listed
    | some entry =>
        have sameHandle : entry.1 = other := by simpa using List.find?_some found
        have sameEntry : entry = (other, _) :=
          List.inj_on_of_nodup_map distinct (List.mem_of_find?_eq_some found) listed sameHandle
        rw [get?, found, sameEntry]
        rfl
  · exact Or.inl (List.mem_map.mpr ⟨_, List.mem_filter.mpr ⟨listed, by simpa using same⟩, rfl⟩)

end Table

namespace Session

open Network

variable {session : Session}

/-- What is left of a dropped graph is held by a handle. -/
structure Retentive (session : Session) : Prop where
  distinct : session.infos.Distinct
  held : ∀ id info, session.network.retained? id = some info → id ∈ session.infos.values

/-- Where a session is retentive, it remains so. -/
def RemainsRetentive (before after : Session) : Prop :=
  before.Retentive → after.Retentive

instance : IsPreorder Session RemainsRetentive where
  refl _ := id
  trans _ _ _ first second := second ∘ first

theorem Retentive.of_retainsNoMore {after : Session} (retentive : session.Retentive)
    (retains : RetainsNoMore session.network after.network) (infos : after.infos = session.infos) :
    after.Retentive where
  distinct := infos ▸ retentive.distinct
  held id info found := by
    cases formerly : session.network.retained? id with
    | none => cases (retains id formerly).symm.trans found
    | some former => exact infos ▸ retentive.held id former formerly

instance : Carries RetainsNoMore RemainsRetentive where
  edited _ _ retains retentive := retentive.of_retainsNoMore retains rfl
  bound session _ same infos retentive :=
    retentive.of_retainsNoMore (same ▸ refl_of RetainsNoMore session.network) infos

theorem Retentive.dropGraph (retentive : session.Retentive) (id : GraphId) :
    (session.dropGraph id).Retentive := by
  rw [Session.dropGraph]
  split
  next isHeld =>
    refine ⟨retentive.distinct, fun other info found => ?_⟩
    rw [retained?_retireGraph] at found
    split at found
    next same => exact same ▸ isHeld
    · exact retentive.held other info found
  · exact retentive.of_retainsNoMore (session.network.retainsNoMore_dropGraph id) rfl

/-- To forget something of which no handle holds anything makes a session retentive if that is
all that no handle holds. -/
theorem retentive_forgetInfo (distinct : session.infos.Distinct) (id : GraphId)
    (held : ∀ other info, session.network.retained? other = some info →
      other ∈ session.infos.values ∨ id = other) : (session.forgetInfo id).Retentive := by
  rw [forgetInfo]
  split
  next needed =>
    refine ⟨distinct, fun other info found => ?_⟩
    refine (held other info found).elim (fun isHeld => isHeld) ?_
    rintro rfl
    refine needed.resolve_left ?_
    simp [graph?_eq_none_of_retained? found]
  · refine ⟨distinct, fun other info found => ?_⟩
    rw [retained?_dropGraph] at found
    split at found
    · cases found
    next different => exact (held other info found).resolve_right different

/-- What a handle loses is forgotten unless another one holds it. -/
theorem Retentive.infoErased (retentive : session.Retentive) {handle : String} {id : GraphId}
    (bound : session.infos.get? handle = some id) :
    ({ session with infos := session.infos.erase handle }.forgetInfo id).Retentive := by
  refine retentive_forgetInfo (retentive.distinct.erase handle) id fun other info found => ?_
  refine (retentive.distinct.mem_values_erase handle (retentive.held other info found)).imp_right ?_
  exact fun lost => Option.some.inj (bound.symm.trans lost)

theorem Retentive.infoBound (retentive : session.Retentive) (handle : GivenText) (id : GraphId) :
    ((Action.bindInfo handle id).on session).2.Retentive := by
  cases handle with
  | absent => exact retentive
  | unusable => exact retentive
  | text handle =>
      have distinct := retentive.distinct.insert handle id
      have kept {other : GraphId} {info : GraphInfo}
          (found : session.network.retained? other = some info) :
          other ∈ (session.infos.insert handle id).values ∨
            session.infos.get? handle = some other := by
        have isHeld := retentive.held other info found
        refine (retentive.distinct.mem_values_erase handle isHeld).imp_left fun still => ?_
        rw [Table.values, Table.insert, List.map_append]
        exact List.mem_append_left _ still
      rw [Action.bindInfo, Action.on_bind, Action.on_get]
      dsimp only
      rw [Action.on_bind, Action.on_change]
      dsimp only
      cases former : session.infos.get? handle with
      | none =>
          refine ⟨distinct, fun other info found => (kept found).resolve_right fun same => ?_⟩
          cases former.symm.trans same
      | some lost =>
          refine retentive_forgetInfo distinct lost fun other info found => ?_
          exact (kept found).imp_right fun same => Option.some.inj (former.symm.trans same)

theorem infoKeeping_remainsRetentive : Action.InfoKeeping RemainsRetentive where
  graphDropped id _ retentive := retentive.dropGraph id
  infoBound handle id _ retentive := retentive.infoBound handle id
  infoErased _ _ _ bound retentive := retentive.infoErased bound

theorem Retentive.step (retentive : session.Retentive) (command : Command) :
    (session.step command).2.Retentive := by
  have cleared : session.clearEvents.Retentive := ⟨retentive.distinct, retentive.held⟩
  have performed : ((Action.perform command).on session.clearEvents).2.Retentive :=
    Action.leads_perform_of_editing Edit.edgeKeeping_retainsNoMore infoKeeping_remainsRetentive
      Edit.edgeEditing_retainsNoMore retainsNoMore_modifyBoundary command _ cleared
  exact performed.of_retainsNoMore (KeepsGraphs.retainsNoMore (graphs_release _ _)) rfl

/-- In every session that commands lead to, what is left of a dropped graph is held by a
handle. -/
theorem Reachable.retentive (reachable : session.Reachable) : session.Retentive := by
  obtain ⟨commands, rfl⟩ := reachable
  induction commands using List.reverseRecOn with
  | nil => exact ⟨List.nodup_nil, fun id info found => by cases id <;> cases found⟩
  | append_singleton commands command ih =>
      rw [Session.run, List.foldl_append]
      exact Retentive.step ih command

/-- No handle holds anything that is left of a dropped graph. -/
def HoldsNoRemains (session : Session) : Prop :=
  ∀ id ∈ session.infos.values, ∃ graph, session.network.graph? id = some graph

/-- Nothing is left of dropped graphs if handles hold nothing that is. -/
theorem Reachable.retained?_eq_none (reachable : session.Reachable)
    (holdsNone : session.HoldsNoRemains) (id : GraphId) : session.network.retained? id = none := by
  cases found : session.network.retained? id with
  | none => rfl
  | some info =>
      obtain ⟨graph, live⟩ := holdsNone id (reachable.retentive.held id info found)
      cases (graph?_eq_none_of_retained? found).symm.trans live

end Session
end TensorGraph
