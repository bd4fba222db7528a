import Mathlib
import TensorGraph.Proofs.Consumers
import TensorGraph.Proofs.ControlEdges
import TensorGraph.Proofs.Rollback

/-!
# Closed descriptions

A graph is described in the order of its schedule.  So a description lists exactly the nodes
that the graph reaches, each after everything that it refers to, and a look-up by number finds
each of them; whatever the description says of inputs can be followed inside it, and the table
that is made from it names every parent in the line of the node.
-/

namespace TensorGraph

namespace Text.Table

/-- Each cell of a row has a column that is wide enough for it. -/
def Fits (cells : List String) (widths : List Nat) : Prop :=
  List.Forall₂ (fun cell places => width cell ≤ places) cells widths

variable {cells row : List String} {widths : List Nat}

/-- Columns that are made wider for a row still fit what they have fitted. -/
theorem Fits.widen (fits : Fits cells widths) (length : row.length = widths.length) :
    Fits cells (widths.zipWith max (row.map width)) := by
  induction fits generalizing row with
  | nil => exact .nil
  | cons fit _ ih =>
      obtain _ | ⟨other, row⟩ := row
      · cases length
      · exact .cons (Nat.le_trans fit (Nat.le_max_left ..)) (ih (Nat.succ.inj length))

/-- Columns that are made wider for a row fit it. -/
theorem fits_widen (length : row.length = widths.length) :
    Fits row (widths.zipWith max (row.map width)) := by
  induction row generalizing widths with
  | nil =>
      rw [List.map_nil, List.zipWith_nil_right]
      exact .nil
  | cons other row ih =>
      obtain _ | ⟨places, widths⟩ := widths
      · cases length
      · exact .cons (Nat.le_max_right ..) (ih (Nat.succ.inj length))

/-- The columns of a table are wide enough for every row that has as many cells as the head. -/
theorem fits_columnWidths {head : List String} {rows : List (List String)}
    (lengths : ∀ row ∈ rows, row.length = head.length) :
    ∀ row ∈ rows, Fits row (columnWidths head rows) := by
  suffices widened : ∀ widths : List Nat, widths.length = head.length →
      ∀ cells, Fits cells widths ∨ cells ∈ rows →
        Fits cells (rows.foldl (fun widths row => widths.zipWith max (row.map width)) widths) from
    fun row member => widened _ (List.length_map ..) row (Or.inr member)
  induction rows with
  | nil => exact fun _ _ _ fits => fits.resolve_right List.not_mem_nil
  | cons row rows ih =>
      obtain ⟨first, rest⟩ := List.forall_mem_cons.mp lengths
      intro widths same cells fits
      have length : row.length = widths.length := first.trans same.symm
      have still : (widths.zipWith max (row.map width)).length = head.length := by
        rw [List.length_zipWith, List.length_map, same, first, Nat.min_self]
      refine ih rest _ still cells ?_
      obtain fits | member := fits
      · exact Or.inl (fits.widen length)
      obtain rfl | member := List.mem_cons.mp member
      · exact Or.inl (fits_widen length)
      · exact Or.inr member

/-- The rows of a table are its lines, in their order. -/
theorem render_map {α : Type} (head : List String) (items : List α)
    (cells : α → List String) :
    ∃ above below, render head (items.map cells) =
      above ++ String.join (items.map fun item =>
        line (columnWidths head (items.map cells)) (cells item)) ++ below := by
  let widths := columnWidths head (items.map cells)
  have lines : (items.map cells).map (line widths) =
      items.map fun item => line widths (cells item) := List.map_map ..
  exact ⟨border widths "┌" "┬" "┐" ++ line widths head ++ border widths "├" "┼" "┤",
    border widths "└" "┴" "┘", by rw [render, lines]⟩

end Text.Table

namespace GraphDescription

variable {description : GraphDescription}

/-- A description has one node for each number, so a look-up finds every node. -/
theorem findNode?_of_mem (nodup : (description.nodes.map (·.id)).Nodup) {node : NodeDescription}
    (member : node ∈ description.nodes) : description.findNode? node.id = some node := by
  obtain ⟨earlier, later, split⟩ := List.append_of_mem member
  rw [split, List.map_append, List.map_cons] at nodup
  rw [findNode?, List.find?_eq_some_iff_append]
  refine ⟨by simp, earlier, later, split, fun other before => ?_⟩
  have different : other.id ≠ node.id :=
    (List.nodup_append.mp nodup).2.2 _ (List.mem_map_of_mem before) _ (List.mem_cons_self ..)
  simpa using different

/-- Where every input can be followed, each has its parent in the table. -/
theorem parentsText_eq {node : NodeDescription} (nameOf : Nat → String)
    (known : ∀ input ∈ node.inputs, ∃ parent,
      description.findNode? input.1 = some parent ∧ parent.name = nameOf input.1) :
    description.parentsText node =
      if node.inputs = [] then "-"
      else ", ".intercalate (node.inputs.map fun input => nameOf input.1) := by
  have names : (node.inputs.filterMap fun input => description.findNode? input.1).map (·.name) =
      node.inputs.map fun input => nameOf input.1 := by
    generalize node.inputs = inputs at known
    induction inputs with
    | nil => rfl
    | cons input inputs ih =>
        obtain ⟨⟨parent, found, name⟩, later⟩ := List.forall_mem_cons.mp known
        rw [List.filterMap_cons, found, List.map_cons, List.map_cons, name, ih later]
  rw [parentsText]
  simp only [List.isEmpty_iff]
  split
  · rfl
  · rw [← names]

/-- The rows of the nodes are the lines of the summary, in their order, and every cell fits its
column. -/
theorem summary_eq (description : GraphDescription) (parameters results sinks : Nat) :
    ∃ above below widths,
      description.summary parameters results sinks =
        above ++ String.join (description.nodes.map fun node =>
          Text.Table.line widths (description.row node)) ++ below ∧
      ∀ node ∈ description.nodes, Text.Table.Fits (description.row node) widths := by
  have lengths : ∀ row ∈ description.nodes.map description.row,
      row.length = columns.length := by
    intro row listed
    obtain ⟨node, -, rfl⟩ := List.mem_map.mp listed
    rfl
  obtain ⟨above, below, drawn⟩ :=
    Text.Table.render_map columns description.nodes description.row
  let count := Text.Decimal.text
  have shown : description.summary parameters results sinks =
      "图: " ++ description.name ++ "\n" ++ above ++
        String.join (description.nodes.map fun node => Text.Table.line
          (Text.Table.columnWidths columns (description.nodes.map description.row))
          (description.row node)) ++
        (below ++ "Parameter: " ++ count parameters ++ "，Result: " ++ count results ++
          "，Sink: " ++ count sinks ++ "，节点总数: " ++ count description.nodes.length ++ "\n") := by
    dsimp only [summary]
    rw [drawn]
    simp only [String.append_assoc, count]
  exact ⟨_, _, _, shown, fun node member =>
    Text.Table.fits_columnWidths lengths _ (List.mem_map_of_mem member)⟩

end GraphDescription

namespace Network

variable {network : Network} {nodes : List NodeId}

section Described

/-- The description of a live node says what the node reads and is ordered after. -/
theorem of_describeNode {id : NodeId} {node : NodeDescription}
    (described : network.describeNode id = some node) :
    node.id = id ∧ node.name = (network.label id).name ∧
      node.inputs = (network.sources id).map (fun source => (source.node, source.index)) ∧
      node.controlDependencies = network.controlDependencies id ∧
      node.outputs.length = network.outputCount id := by
  obtain ⟨found, alive, rfl⟩ := Option.map_eq_some_iff.mp described
  simp [label, sources, controlDependencies, outputCount, outputPorts, alive, Node.label]

theorem describeNode_of_mem {name : String} {node : NodeDescription}
    (member : node ∈ (network.describe name nodes).nodes) :
    network.describeNode node.id = some node := by
  obtain ⟨id, -, described⟩ := List.mem_filterMap.mp member
  rwa [(of_describeNode described).1]

/-- Live nodes are described under their numbers, in the same places. -/
theorem map_id_describe (name : String) (alive : ∀ id ∈ nodes, network.Alive id) :
    (network.describe name nodes).nodes.map (·.id) = nodes := by
  change (nodes.filterMap network.describeNode).map (·.id) = nodes
  induction nodes with
  | nil => rfl
  | cons id nodes ih =>
      obtain ⟨⟨node, found⟩, later⟩ := List.forall_mem_cons.mp alive
      have described : network.describeNode id = some _ := congrArg (Option.map _) found
      rw [List.filterMap_cons_some described, List.map_cons, ih later]

/-- Of nodes that each stand after their dependencies, a description refers to what it has
described before. -/
theorem describe_refers_back (linked : network.Linked) {name : String}
    (alive : ∀ id ∈ nodes, network.Alive id)
    (sequenced : ∀ earlier id later, nodes = earlier ++ id :: later →
      ∀ dependency ∈ network.dependencies id, dependency ∈ earlier)
    {earlier later : List NodeDescription} {node : NodeDescription}
    (split : (network.describe name nodes).nodes = earlier ++ node :: later) :
    (∀ input ∈ node.inputs, ∃ source ∈ earlier,
      source.id = input.1 ∧ input.2 < source.outputs.length) ∧
    ∀ dependency ∈ node.controlDependencies, ∃ other ∈ earlier, other.id = dependency := by
  have described (other : NodeDescription) (member : other ∈ earlier ++ node :: later) :
      network.describeNode other.id = some other :=
    describeNode_of_mem (split.symm ▸ member)
  have numbers : nodes = earlier.map (·.id) ++ node.id :: later.map (·.id) := by
    rw [← network.map_id_describe name alive, split, List.map_append, List.map_cons]
  have before {dependency : NodeId} (depends : dependency ∈ network.dependencies node.id) :
      ∃ other ∈ earlier, other.id = dependency :=
    List.mem_map.mp (sequenced _ _ _ numbers dependency depends)
  obtain ⟨-, -, inputs, controls, -⟩ := of_describeNode (described node (by simp))
  refine ⟨fun input member => ?_, fun dependency member => ?_⟩
  · rw [inputs] at member
    obtain ⟨port, reads, rfl⟩ := List.mem_map.mp member
    obtain ⟨index, found⟩ := List.mem_iff_getElem?.mp reads
    have follows : network.source? ⟨node.id, index⟩ = some port := found
    obtain ⟨source, listed, number⟩ :=
      before (mem_dependencies_iff.mpr (Or.inl ⟨index, port, follows, rfl⟩))
    refine ⟨source, listed, number, ?_⟩
    rw [(of_describeNode (described source (by simp [listed]))).2.2.2.2, number]
    exact linked.lt_outputCount follows
  · rw [controls] at member
    exact before (mem_dependencies_of_control member)

/-- Such a description shows the name of every parent. -/
theorem parentsText_describe (linked : network.Linked) {name : String}
    (alive : ∀ id ∈ nodes, network.Alive id)
    (sequenced : ∀ earlier id later, nodes = earlier ++ id :: later →
      ∀ dependency ∈ network.dependencies id, dependency ∈ earlier)
    (nodup : nodes.Nodup) {node : NodeDescription}
    (member : node ∈ (network.describe name nodes).nodes) :
    (network.describe name nodes).parentsText node = if node.inputs = [] then "-"
      else ", ".intercalate (node.inputs.map fun input => (network.label input.1).name) := by
  rw [← network.map_id_describe name alive] at nodup
  refine GraphDescription.parentsText_eq (fun id => (network.label id).name) fun input reads => ?_
  obtain ⟨earlier, later, split⟩ := List.append_of_mem member
  obtain ⟨parent, before, number, -⟩ :=
    (network.describe_refers_back linked alive sequenced split).1 input reads
  have listed : parent ∈ (network.describe name nodes).nodes := by
    rw [split]
    exact List.mem_append_left _ before
  refine ⟨parent, number ▸ GraphDescription.findNode?_of_mem nodup listed, ?_⟩
  rw [(of_describeNode (describeNode_of_mem listed)).2.1, number]

end Described

theorem Keeps.name_label {before after : Network} (keeps : Keeps before after) (id : NodeId) :
    (after.label id).name = (before.label id).name := by
  have named (network : Network) :
      (network.label id).name = (network.node? id).elim "" (·.name) := by
    rw [label]
    cases network.node? id <;> rfl
  rw [named, named]
  exact (keeps.nodes.map Node.name).elim_eq id ""

/-- A description that is answered is made from an order of what the graph reaches, in a
network in which nothing has changed but schedules. -/
theorem Coherent.of_on_describe (coherent : network.Coherent) {id : GraphId} {graph : Graph}
    (found : network.graph? id = some graph) {description : GraphDescription} {after : Network}
    (answered : (Edit.describe id).on network = (.ok description, after)) :
    ∃ nodes name, network.Ordered graph.currentRoots nodes ∧ Keeps network after ∧
      description = after.describe name nodes := by
  obtain ⟨nodes, between, scheduled, described⟩ := Edit.of_on_bind answered
  rw [Edit.on_bind, Edit.on_get] at described
  obtain ⟨same, rfl⟩ := Prod.mk.inj described
  have ordered := coherent.fst_schedule found
  have keeps := Keeps.of_schedule network id
  rw [scheduled] at ordered keeps
  exact ⟨nodes, _, coherent.ordered found ordered.symm, keeps, (Except.ok.inj same).symm⟩

end Network

/-- The summary of a graph is made from its description and tells the sizes of its boundary. -/
theorem Edit.on_summarize {network after : Network} {id : GraphId}
    {description : GraphDescription}
    (described : (describe id).on network = (.ok description, after)) :
    (summarize id).on network =
      (.ok (description.summary (after.graph id).parameters.length
        (after.graph id).results.length (after.graph id).sinks.length), after) := by
  rw [summarize, on_bind, described]
  rfl

namespace Session

variable {session : Session}

/-- A description lists each node that its graph reaches once, under its number and with what it
reads and is ordered after; it refers back only, to nodes that have the outputs it names; a
look-up finds every node, and its row names every parent.  The summary of the graph is answered as
well; its lines are the rows of the nodes, in their order, with a column for every cell. -/
theorem Reachable.description_closed (reachable : session.Reachable) {id : GraphId} {graph : Graph}
    (found : session.network.graph? id = some graph) {description : GraphDescription}
    {after : Network}
    (described : (Edit.describe id).on session.network = (.ok description, after)) :
    (description.nodes.map (·.id)).Nodup ∧
    (∀ node, node ∈ description.nodes.map (·.id) ↔
      session.network.Reaches (graph.results ++ graph.sinks ++ graph.parameters) node) ∧
    (∀ earlier node later, description.nodes = earlier ++ node :: later →
      (∀ input ∈ node.inputs, ∃ source ∈ earlier,
        source.id = input.1 ∧ input.2 < source.outputs.length) ∧
      ∀ dependency ∈ node.controlDependencies, ∃ other ∈ earlier, other.id = dependency) ∧
    (∀ node ∈ description.nodes,
      node.inputs = (session.network.sources node.id).map
        (fun source => (source.node, source.index)) ∧
      node.controlDependencies = session.network.controlDependencies node.id ∧
      description.findNode? node.id = some node ∧
      description.parentsText node =
        (if node.inputs = [] then "-"
        else ", ".intercalate
          (node.inputs.map fun input => (session.network.label input.1).name)) ∧
      description.row node =
        [node.name, node.operator.typeName, node.typesText, node.namesText,
          if node.inputs = [] then "-"
          else ", ".intercalate
            (node.inputs.map fun input => (session.network.label input.1).name)]) ∧
    ∃ text, (Edit.summarize id).on session.network = (.ok text, after) ∧
      ∃ above below widths,
        text = above ++ String.join (description.nodes.map fun node =>
          Text.Table.line widths (description.row node)) ++ below ∧
        ∀ node ∈ description.nodes, Text.Table.Fits (description.row node) widths := by
  have summarized := Edit.on_summarize described
  obtain ⟨nodes, name, ordered, keeps, rfl⟩ :=
    reachable.coherent.of_on_describe found described
  have alive (node : NodeId) (member : node ∈ nodes) : after.Alive node :=
    (keeps.alive_iff node).mpr (Network.alive_of_reaches reachable.coherent.dependencies
      (reachable.coherent.alive_of_mem_currentRoots found) ((ordered.mem_iff node).mp member))
  have linked : after.Linked := by
    have moves := Edit.within_describe (Edit.follows_schedule id) session.network
    rw [described] at moves
    exact reachable.linked.of_moves moves reachable.regular
  have sequenced (earlier : List NodeId) (node : NodeId) (later : List NodeId)
      (split : nodes = earlier ++ node :: later) (dependency : NodeId)
      (depends : dependency ∈ after.dependencies node) : dependency ∈ earlier :=
    ordered.after earlier node later split dependency (keeps.dependencies node ▸ depends)
  have numbers := after.map_id_describe name alive
  have nodup : ((after.describe name nodes).nodes.map (·.id)).Nodup := by
    rw [numbers]
    exact ordered.nodup
  refine ⟨nodup, fun node => ?_, fun _ _ _ => after.describe_refers_back linked alive sequenced,
    fun node member => ?_, _, summarized, GraphDescription.summary_eq ..⟩
  · rw [numbers]
    exact ordered.mem_iff node
  obtain ⟨-, -, inputs, controls, -⟩ := Network.of_describeNode (Network.describeNode_of_mem member)
  have parents := after.parentsText_describe linked alive sequenced ordered.nodup member
  simp only [keeps.name_label] at parents
  refine ⟨?_, ?_, GraphDescription.findNode?_of_mem nodup member, parents, ?_⟩
  · rw [inputs]
    exact congrArg _ ((keeps.nodes.map Node.sources).elim_eq node.id [])
  · rw [controls]
    exact (keeps.nodes.map Node.controlDependencies).elim_eq node.id []
  · rw [GraphDescription.row, parents]

/-- A graph with a concatenation that reads one rectifier twice, whose later rectifier was
ordered after the other one, and rewired, when the graph had a schedule. -/
def plaited : Session :=
  empty.run [
    .create (.parameter { elementType := .f32, shape := .fixed [2, 3] }) [] none (.text "feed"),
    .create .relu [⟨1, 0⟩] none (.text "late"),
    .create .relu [⟨1, 0⟩] none (.text "early"),
    .create (.concat 0) [⟨2, 0⟩, ⟨1, 0⟩, ⟨2, 0⟩] none (.text "joint"),
    .createGraphFromOutputs [⟨4, 0⟩] [1] .absent (.text "graph"),
    .addControlDependency 2 3,
    .setSource ⟨4, 1⟩ ⟨3, 0⟩]

theorem plaited_reachable : plaited.Reachable :=
  ⟨_, rfl⟩

theorem listing_plaited :
    (plaited.network.graph? 1).isSome ∧
    plaited.network.sources 4 = [⟨2, 0⟩, ⟨3, 0⟩, ⟨2, 0⟩] ∧
    (plaited.network.label 2).name = "Relu_2" ∧ (plaited.network.label 3).name = "Relu_3" ∧
    (((Edit.describe 1).on plaited.network).1.map fun description =>
      description.nodes.map (·.id)) = .ok [1, 3, 2, 4, 5] := by
  cbv
  exact ⟨rfl, rfl, trivial⟩

theorem description_plaited :
    ∃ description after, (Edit.describe 1).on plaited.network = (.ok description, after) ∧
      description.nodes.map (·.id) = [1, 3, 2, 4, 5] ∧ (description.nodes.map (·.id)).Nodup ∧
      (∃ node ∈ description.nodes, node.id = 4 ∧
        description.parentsText node = "Relu_2, Relu_3, Relu_2" ∧
        (description.row node).getLast? = some "Relu_2, Relu_3, Relu_2") ∧
      ∃ text, ((Edit.summarize 1).on plaited.network).1 = .ok text ∧
        ∃ above below widths,
          text = above ++ String.join (description.nodes.map fun node =>
            Text.Table.line widths (description.row node)) ++ below ∧
          ∀ node ∈ description.nodes, Text.Table.Fits (description.row node) widths := by
  obtain ⟨known, reads, ofLate, ofEarly, listed⟩ := listing_plaited
  obtain ⟨graph, found⟩ := Option.isSome_iff_exists.mp known
  rcases outcome : (Edit.describe 1).on plaited.network with ⟨_ | description, after⟩
  · rw [outcome] at listed
    cases listed
  rw [outcome] at listed
  have numbers : description.nodes.map (·.id) = [1, 3, 2, 4, 5] := Except.ok.inj listed
  obtain ⟨nodup, -, -, nodes, text, summarized, drawn⟩ :=
    plaited_reachable.description_closed found outcome
  obtain ⟨node, member, number⟩ : ∃ node ∈ description.nodes, node.id = 4 :=
    List.mem_map.mp (numbers ▸ by decide)
  obtain ⟨inputs, -, -, parents, row⟩ := nodes node member
  have names : description.parentsText node = "Relu_2, Relu_3, Relu_2" := by
    rw [parents, inputs, number, reads]
    simp only [List.map_cons, List.map_nil, ofLate, ofEarly]
    rfl
  rw [← parents, names] at row
  exact ⟨description, after, rfl, numbers, nodup,
    ⟨node, member, number, names, congrArg List.getLast? row⟩, text, by rw [summarized], drawn⟩

end Session
end TensorGraph
