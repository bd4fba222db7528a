import Mathlib
import TensorGraph.Proofs.Naming
import TensorGraph.Proofs.Uniqueness

/-!
# Whose names a port gives out

Following results to what they read comes to an end on every wiring, since no result is passed
twice.  It ends at an output of no result, at a result that reads nothing, or where a ring of
results closes; and from there it ends at the same port again.  So ports fall into groups, each
with one owner, and names that are given through one port of a group show at all of the group
and nowhere else.
-/

namespace TensorGraph

open Relation

namespace Network

/-- The port is that of a result, which gives out the source. -/
def Aliases (network : Network) (port source : OutputPort) : Prop :=
  network.aliased? port = some source

/-- Results give out one another in a ring, each of them once, from the port back to it. -/
def Ring (network : Network) (port : OutputPort) : Prop :=
  ∃ others : List OutputPort, (port :: (others ++ [port])).IsChain network.Aliases ∧
    ((port :: others).map (·.node)).Nodup

/-- Follow results, none of them twice, if that takes no more than the given number of steps:
the first port that belongs to no result, to one that was visited or to one that reads
nothing. -/
def ownerWithin (network : Network) (visited : List NodeId) (port : OutputPort) :
    Nat → Option OutputPort
  | 0 => none
  | steps + 1 =>
      if network.isResult port.node ∧ port.node ∉ visited then
        match network.source? ⟨port.node, 0⟩ with
        | some source => network.ownerWithin (port.node :: visited) source steps
        | none => some port
      else some port

variable {network : Network} {port source owner : OutputPort}

section Aliases

theorem isResult_of_aliases (aliases : network.Aliases port source) :
    network.isResult port.node := by
  rw [Aliases, aliased?] at aliases
  split at aliases
  · assumption
  · cases aliases

theorem source?_of_aliases (aliases : network.Aliases port source) :
    network.source? ⟨port.node, 0⟩ = some source := by
  have isResult := isResult_of_aliases aliases
  rwa [Aliases, aliased?, if_pos isResult] at aliases

theorem alive_of_aliases (aliases : network.Aliases port source) : network.Alive port.node :=
  alive_of_dependsOn (dependsOn_of_aliased? aliases)

/-- What a port gives out is a matter of its node alone. -/
theorem Aliases.of_same_node {other : OutputPort} (aliases : network.Aliases port source)
    (same : other.node = port.node) : network.Aliases other source := by
  rwa [Aliases, aliased?, same, ← aliased?]

theorem aliases_rightUnique (network : Network) : Relator.RightUnique network.Aliases :=
  fun _ _ _ first second => Option.some.inj (first.symm.trans second)

/-- The port of a node that is no result gives out nothing but itself. -/
theorem not_aliases (noResult : network.isResult port.node = false) (source : OutputPort) :
    ¬ network.Aliases port source := by
  intro aliases
  rw [isResult_of_aliases aliases] at noResult
  cases noResult

theorem Ring.cycle (ring : network.Ring port) : TransGen network.Aliases port port := by
  obtain ⟨others, chain, -⟩ := ring
  cases others with
  | nil => exact .single (List.isChain_cons_cons.mp chain).1
  | cons first others =>
      obtain ⟨aliases, rest⟩ := List.isChain_cons_cons.mp chain
      exact .head' aliases (List.relationReflTransGen_of_exists_isChain_cons _ rest (by simp))

/-- What is reached from a ring leads back to it. -/
theorem leads_back (cycle : TransGen network.Aliases port port)
    (path : ReflTransGen network.Aliases port owner) : TransGen network.Aliases owner port := by
  induction path with
  | refl => exact cycle
  | tail _ aliases ih =>
      obtain ⟨next, leads, rest⟩ := TransGen.head'_iff.mp ih
      obtain rfl := network.aliases_rightUnique aliases leads
      exact .trans_right rest cycle

end Aliases

section Walks

/-- How far results have been followed: the passed ports led from one to the next and at last to
this port, no two of them belong to one node, and the other live nodes remain. -/
structure Walked (network : Network) (passed : List OutputPort) (remaining : List NodeId)
    (port : OutputPort) : Prop where
  chain : (passed ++ [port]).IsChain network.Aliases
  nodup : (passed.map (·.node)).Nodup
  once : remaining.Nodup
  mem_remaining : ∀ id, network.Alive id → (id ∈ remaining ↔ id ∉ passed.map (·.node))

variable {passed : List OutputPort} {remaining : List NodeId}

theorem walked_start (network : Network) (port : OutputPort) :
    Walked network [] network.nodes.ids port where
  chain := List.isChain_singleton port
  nodup := List.nodup_nil
  once := network.nodes.nodup_ids
  mem_remaining id alive := by simpa using mem_ids.mpr alive

theorem Walked.step (walked : Walked network passed remaining port)
    (aliases : network.Aliases port source) (member : port.node ∈ remaining) :
    Walked network (passed ++ [port]) (remaining.erase port.node) source where
  chain := by
    refine List.isChain_append.mpr ⟨walked.chain, List.isChain_singleton source, ?_⟩
    simpa using aliases
  nodup := by
    have unpassed := (walked.mem_remaining _ (alive_of_aliases aliases)).mp member
    rw [List.map_append, List.map_singleton]
    exact List.concat_eq_append ▸ walked.nodup.concat unpassed
  once := walked.once.erase _
  mem_remaining id alive := by
    rw [walked.once.mem_erase_iff, walked.mem_remaining id alive]
    simp only [List.map_append, List.map_cons, List.map_nil, List.mem_append, List.mem_singleton]
    tauto

/-- A port of a node that was passed before closes a ring. -/
theorem Walked.ring (walked : Walked network passed remaining port)
    (aliases : network.Aliases port source) (absent : port.node ∉ remaining) :
    network.Ring port := by
  have visited : port.node ∈ passed.map (·.node) := by
    by_contra unpassed
    exact absent ((walked.mem_remaining _ (alive_of_aliases aliases)).mpr unpassed)
  obtain ⟨former, member, same⟩ := List.mem_map.mp visited
  obtain ⟨earlier, later, rfl⟩ := List.append_of_mem member
  have chain := walked.chain
  rw [List.append_assoc, List.cons_append] at chain
  have nodup := walked.nodup
  rw [List.map_append] at nodup
  refine ⟨later, ?_, ?_⟩
  · have onward := (List.isChain_append.mp chain).2.1
    cases next : later ++ [port] with
    | nil => simp at next
    | cons first rest =>
        rw [next] at onward
        obtain ⟨leads, others⟩ := List.isChain_cons_cons.mp onward
        exact List.isChain_cons_cons.mpr ⟨leads.of_same_node same.symm, others⟩
  · have apart := (List.nodup_append.mp nodup).2.1
    rwa [List.map_cons, same, ← List.map_cons] at apart

/-- Following results ends at a port that gives out nothing else, or on a ring. -/
theorem Walked.ownerAmong_ends (walked : Walked network passed remaining port) :
    network.aliased? (network.ownerAmong remaining port) = none ∨
      network.Ring (network.ownerAmong remaining port) := by
  fun_induction ownerAmong network remaining port generalizing passed with
  | case1 remaining port unaliased => exact Or.inl unaliased
  | case2 remaining port source aliased member ih => exact ih (walked.step aliased member)
  | case3 remaining port source aliased absent => exact Or.inr (walked.ring aliased absent)

theorem path_ownerAmong (network : Network) (remaining : List NodeId) (port : OutputPort) :
    ReflTransGen network.Aliases port (network.ownerAmong remaining port) := by
  fun_induction ownerAmong network remaining port with
  | case1 => exact .refl
  | case2 remaining port source aliased member ih => exact .head aliased ih
  | case3 => exact .refl

/-- A chain through live nodes that remain is followed to its end, if the node of that was passed
on the way or does not remain. -/
theorem ownerAmong_of_chain (ports : List OutputPort) {first : OutputPort}
    (starts : (ports ++ [owner]).head? = some first)
    (chain : (ports ++ [owner]).IsChain network.Aliases) (nodup : (ports.map (·.node)).Nodup)
    (once : remaining.Nodup)
    (remain : ∀ other ∈ ports, network.Alive other.node → other.node ∈ remaining)
    (ends : owner.node ∈ ports.map (·.node) ∨ owner.node ∉ remaining) :
    network.ownerAmong remaining first = owner := by
  induction ports generalizing remaining first with
  | nil =>
      obtain rfl : owner = first := Option.some.inj starts
      rw [ownerAmong]
      split
      · rfl
      · rw [if_neg (ends.resolve_left List.not_mem_nil)]
  | cons port ports ih =>
      obtain rfl : port = first := Option.some.inj starts
      obtain ⟨now, later⟩ := List.forall_mem_cons.mp remain
      obtain ⟨unlisted, rest⟩ := List.nodup_cons.mp nodup
      obtain ⟨leads, onward⟩ := List.isChain_cons.mp chain
      cases next : (ports ++ [owner]).head? with
      | none => simp at next
      | some source =>
          have aliases := leads source next
          have member := now (alive_of_aliases aliases)
          rw [ownerAmong, show network.aliased? port = some source from aliases]
          dsimp only
          rw [if_pos member]
          refine ih next onward rest (once.erase _) (fun other listed alive => ?_) ?_
          · have apart : other.node ≠ port.node :=
              ne_of_mem_of_not_mem (List.mem_map_of_mem listed) unlisted
            exact (List.mem_erase_of_ne apart).mpr (later other listed alive)
          · rw [List.map_cons, List.mem_cons] at ends
            rw [once.mem_erase_iff]
            tauto

/-- Following results and keeping those that remain, or those that were visited, comes to the
same. -/
theorem Walked.ownerWithin_eq (walked : Walked network passed remaining port)
    {visited : List NodeId} (same : ∀ id, id ∈ visited ↔ id ∈ passed.map (·.node))
    {steps : Nat} (enough : remaining.length < steps) :
    network.ownerWithin visited port steps = some (network.ownerAmong remaining port) := by
  obtain ⟨steps, rfl⟩ : ∃ fewer, steps = fewer + 1 := ⟨steps - 1, by omega⟩
  fun_induction ownerAmong network remaining port generalizing passed visited steps with
  | case1 remaining port unaliased =>
      rw [ownerWithin]
      split
      next onward =>
        rw [aliased?, if_pos onward.1] at unaliased
        rw [unaliased]
      · rfl
  | case2 remaining port source aliased member ih =>
      have unvisited : port.node ∉ visited := by
        rw [same, ← walked.mem_remaining _ (alive_of_aliases aliased)]
        exact member
      have shorter := List.length_erase_of_mem member
      have := List.length_pos_of_mem member
      obtain ⟨fewer, rfl⟩ : ∃ fewer, steps = fewer + 1 := ⟨steps - 1, by omega⟩
      rw [ownerWithin, if_pos ⟨isResult_of_aliases aliased, unvisited⟩,
        source?_of_aliases aliased]
      refine ih (walked.step aliased member) (fun id => ?_) fewer (by omega)
      rw [List.mem_cons, same, List.map_append, List.mem_append, List.map_singleton,
        List.mem_singleton, or_comm]
  | case3 remaining port source aliased absent =>
      have visitedBefore : port.node ∈ visited := by
        by_contra unvisited
        rw [same, ← walked.mem_remaining _ (alive_of_aliases aliased)] at unvisited
        exact absent unvisited
      rw [ownerWithin, if_neg fun both => both.2 visitedBefore]

end Walks

section Owners

theorem path_tensorOwner (network : Network) (port : OutputPort) :
    ReflTransGen network.Aliases port (network.tensorOwner port) := by
  rw [tensorOwner_eq_ownerAmong]
  exact network.path_ownerAmong _ port

theorem tensorOwner_ends (network : Network) (port : OutputPort) :
    network.aliased? (network.tensorOwner port) = none ∨
      network.Ring (network.tensorOwner port) := by
  rw [tensorOwner_eq_ownerAmong]
  exact (network.walked_start port).ownerAmong_ends

/-- An output of no result that results lead to is the owner. -/
theorem tensorOwner_eq_of_path (path : ReflTransGen network.Aliases port owner)
    (noResult : network.isResult owner.node = false) : network.tensorOwner port = owner := by
  have stops {other : OutputPort} (onward : ReflTransGen network.Aliases owner other) :
      other = owner := by
    rcases ReflTransGen.cases_head onward with same | ⟨next, aliases, -⟩
    · exact same.symm
    · exact absurd aliases (not_aliases noResult next)
  rcases ReflTransGen.total_of_right_unique network.aliases_rightUnique path
    (network.path_tensorOwner port) with onward | back
  · exact stops onward
  rcases network.tensorOwner_ends port with unaliased | ring
  · rcases ReflTransGen.cases_head back with same | ⟨next, aliases, -⟩
    · exact same
    · cases unaliased.symm.trans aliases
  · obtain ⟨next, aliases, -⟩ := TransGen.head'_iff.mp (leads_back ring.cycle back)
    exact absurd aliases (not_aliases noResult next)

/-- A port on a ring owns its names, since following results comes back to it first. -/
theorem Ring.tensorOwner_eq (ring : network.Ring port) : network.tensorOwner port = port := by
  obtain ⟨others, chain, nodup⟩ := ring
  rw [tensorOwner_eq_ownerAmong]
  exact ownerAmong_of_chain (port :: others) rfl chain nodup network.nodes.nodup_ids
    (fun _ _ alive => mem_ids.mpr alive) (Or.inl (List.mem_cons_self ..))

/-- The owner of names owns its own names. -/
theorem tensorOwner_tensorOwner (network : Network) (port : OutputPort) :
    network.tensorOwner (network.tensorOwner port) = network.tensorOwner port := by
  rcases network.tensorOwner_ends port with unaliased | ring
  · rw [network.tensorOwner_eq_ownerAmong (network.tensorOwner port), ownerAmong, unaliased]
  · exact ring.tensorOwner_eq

/-- Following results takes a step for each live node at most, and a last one. -/
theorem ownerWithin_eq_tensorOwner (port : OutputPort) {steps : Nat}
    (enough : network.nodes.ids.length < steps) :
    network.ownerWithin [] port steps = some (network.tensorOwner port) := by
  rw [tensorOwner_eq_ownerAmong]
  exact (network.walked_start port).ownerWithin_eq (fun _ => Iff.rfl) enough

end Owners

section Naming

/-- Following results is a matter of what results give out. -/
theorem ownerAmong_eq_of_aliased? {after : Network}
    (same : ∀ port, after.aliased? port = network.aliased? port) (remaining : List NodeId)
    (port : OutputPort) : after.ownerAmong remaining port = network.ownerAmong remaining port := by
  fun_induction ownerAmong network remaining port with
  | case1 remaining port unaliased => rw [ownerAmong, same, unaliased]
  | case2 remaining port source aliased member ih =>
      rw [ownerAmong, same, aliased]
      dsimp only
      rw [if_pos member, ih]
  | case3 remaining port source aliased absent =>
      rw [ownerAmong, same, aliased]
      dsimp only
      rw [if_neg absent]

theorem Agree.ids_eq {β : Type} {view : Node → β} {before after : Network}
    (agree : Agree view before after) (next : after.nodes.nextId = before.nodes.nextId) :
    after.nodes.ids = before.nodes.ids := by
  have size : after.nodes.slots.size = before.nodes.slots.size := next
  rw [Store.ids, Store.ids, size]
  congr 1
  refine List.filter_congr fun id _ => ?_
  have same := congrArg Option.isSome (agree id)
  rwa [Option.isSome_map, Option.isSome_map] at same

/-- A naming does not change who owns the names of a port. -/
theorem Renamed.tensorOwner_eq {before after : Network} (renamed : Renamed before after owner)
    (other : OutputPort) : after.tensorOwner other = before.tensorOwner other := by
  have sources : Agree Node.sources before after := renamed.nodes.map Node.sources
  have roles : Agree (·.operator.role) before after := renamed.nodes.map (·.operator.role)
  have aliased (port : OutputPort) : after.aliased? port = before.aliased? port := by
    have role : after.role? port.node = before.role? port.node := roles port.node
    rw [aliased?, isResult, role, sources.source?_eq, aliased?, isResult]
  rw [tensorOwner_eq_ownerAmong, tensorOwner_eq_ownerAmong, renamed.nodes.ids_eq renamed.next,
    ownerAmong_eq_of_aliased? aliased]

/-- The names that the owner has been given are read at the ports that it owns, and what is read
at the others is what was. -/
theorem Renamed.tensorNames_eq {before after : Network} (renamed : Renamed before after owner)
    (other : OutputPort) :
    after.tensorNames other =
      if before.tensorOwner other = owner then after.ownNames owner
      else before.tensorNames other := by
  rw [tensorNames, renamed.tensorOwner_eq]
  split
  next same => rw [same]
  next different => rw [renamed.others _ different, tensorNames]

end Naming

end Network

namespace Session

open Network

variable {session : Session}

/-- On every wiring, following results from a port comes to an end within a step for each live
node and one more, and at an output of no result wherever they lead to one.  The end is an output
that exists, and following results from there ends at once or comes back.  Names that are given
through a port are read at every port with the same owner, and all others read what they did. -/
theorem Reachable.owner_well_defined (reachable : session.Reachable) {port : OutputPort}
    (valid : port.index < session.network.outputCount port.node) :
    (∀ steps, session.network.nodes.ids.length < steps →
      session.network.ownerWithin [] port steps = some (session.network.tensorOwner port)) ∧
    (∀ owner, ReflTransGen session.network.Aliases port owner →
      session.network.isResult owner.node = false → session.network.tensorOwner port = owner) ∧
    (session.network.tensorOwner port).index <
      session.network.outputCount (session.network.tensorOwner port).node ∧
    session.network.tensorOwner (session.network.tensorOwner port) =
      session.network.tensorOwner port ∧
    (∀ names after, (Edit.setNames port names).on session.network = (.ok (), after) →
      ∀ other, after.tensorOwner other = session.network.tensorOwner other ∧
        after.tensorNames other =
          if session.network.tensorOwner other = session.network.tensorOwner port then
            .ofList names
          else session.network.tensorNames other) ∧
    ∀ names after, (Edit.addNames port names).on session.network = (.ok (), after) →
      ∀ other, after.tensorOwner other = session.network.tensorOwner other ∧
        after.tensorNames other =
          if session.network.tensorOwner other = session.network.tensorOwner port then
            (session.network.tensorNames port).union (.ofList names)
          else session.network.tensorNames other := by
  have ownerValid := reachable.linked.lt_outputCount_tensorOwner valid
  refine ⟨fun steps => ownerWithin_eq_tensorOwner port, fun owner => tensorOwner_eq_of_path,
    ownerValid, tensorOwner_tensorOwner _ _, fun names after accepted other => ?_,
    fun names after accepted other => ?_⟩
  · obtain ⟨-, rfl⟩ := Edit.of_on_updateNames accepted
    have renamed : Renamed session.network _ (session.network.tensorOwner port) :=
      renamed_spec _ fun _ => .ofList names
    exact ⟨renamed.tensorOwner_eq other, by
      rw [renamed.tensorNames_eq, ownNames_renamed_self ownerValid]⟩
  · obtain ⟨-, rfl⟩ := Edit.of_on_updateNames accepted
    have renamed : Renamed session.network _ (session.network.tensorOwner port) :=
      renamed_spec _ (·.union (.ofList names))
    exact ⟨renamed.tensorOwner_eq other, by
      rw [renamed.tensorNames_eq, ownNames_renamed_self ownerValid]
      rfl⟩

/-- Two results in a ring and one that leads into it from outside, a result that reads nothing any
more, one that reads itself, and two that lead to a parameter. -/
def ringed : Session :=
  empty.run [
    .create (.parameter { elementType := .f32, shape := .fixed [2, 3] }) [] none (.text "feed"),
    .create .result [⟨1, 0⟩] none (.text "plain"),
    .create .result [⟨2, 0⟩] none (.text "chained"),
    .create .result [⟨3, 0⟩] none (.text "closing"),
    .create .result [⟨4, 0⟩] none (.text "entering"),
    .create .result [⟨2, 0⟩] none (.text "loose"),
    .create .result [⟨2, 0⟩] none (.text "looped"),
    .create .result [⟨2, 0⟩] none (.text "further"),
    .setSource ⟨3, 0⟩ ⟨4, 0⟩,
    .setSources 6 [],
    .setSource ⟨7, 0⟩ ⟨7, 0⟩]

theorem ringed_reachable : ringed.Reachable :=
  ⟨_, rfl⟩

theorem owners_ringed :
    ringed.network.nodes.ids.length < 9 ∧
    ringed.network.tensorOwner ⟨5, 0⟩ = ⟨4, 0⟩ ∧
    ringed.network.tensorOwner ⟨3, 0⟩ = ⟨3, 0⟩ ∧
    ringed.network.tensorOwner ⟨6, 0⟩ = ⟨6, 0⟩ ∧
    ringed.network.tensorOwner ⟨7, 0⟩ = ⟨7, 0⟩ ∧
    ringed.network.aliased? ⟨8, 0⟩ = some ⟨2, 0⟩ ∧
    ringed.network.aliased? ⟨2, 0⟩ = some ⟨1, 0⟩ ∧
    ringed.network.isResult 1 = false ∧
    0 < ringed.network.outputCount 5 ∧ 0 < ringed.network.outputCount 8 ∧
    ((Edit.setNames ⟨5, 0⟩ ["round"]).on ringed.network).1 = .ok () ∧
    ringed.network.tensorNames ⟨3, 0⟩ = [] := by
  cbv

/-- From outside a ring, names are read and given where the ring is entered; they do not show on
the other side of it. -/
theorem owner_ringed :
    ringed.Reachable ∧ (0 < ringed.network.outputCount 5 ∧ 0 < ringed.network.outputCount 8) ∧
    ringed.network.ownerWithin [] ⟨5, 0⟩ 9 = some ⟨4, 0⟩ ∧
    ringed.network.tensorOwner ⟨4, 0⟩ = ⟨4, 0⟩ ∧
    ringed.network.tensorOwner ⟨8, 0⟩ = ⟨1, 0⟩ ∧
    ∃ after, (Edit.setNames ⟨5, 0⟩ ["round"]).on ringed.network = (.ok (), after) ∧
      after.tensorNames ⟨4, 0⟩ = ["round"] ∧ after.tensorNames ⟨3, 0⟩ = [] := by
  obtain ⟨few, entering, closing, -, -, further, chained, noResult, outer, inner, accepted,
    unnamed⟩ := owners_ringed
  obtain ⟨ends, -, -, stays, naming, -⟩ :=
    @Reachable.owner_well_defined ringed ringed_reachable ⟨5, 0⟩ outer
  obtain ⟨-, leads, -⟩ := @Reachable.owner_well_defined ringed ringed_reachable ⟨8, 0⟩ inner
  obtain ⟨⟨answer, after⟩, taken⟩ :
      ∃ taken, (Edit.setNames ⟨5, 0⟩ ["round"]).on ringed.network = taken := ⟨_, rfl⟩
  rw [taken] at accepted
  obtain rfl : answer = .ok () := accepted
  have named := naming ["round"] after taken
  have path : ReflTransGen ringed.network.Aliases ⟨8, 0⟩ ⟨1, 0⟩ := .head further (.single chained)
  rw [entering] at ends stays
  refine ⟨ringed_reachable, ⟨outer, inner⟩, ends 9 few, stays, leads _ path noResult, after, taken,
    ?_, ?_⟩
  · rw [(named ⟨4, 0⟩).2, stays, entering]
    rfl
  · rw [(named ⟨3, 0⟩).2, closing, entering, unnamed]
    rfl

end Session
end TensorGraph
