import TensorGraph.Description.Reading
import TensorGraph.Description.Writing
import TensorGraph.Proofs.Parsing

/-!
# Descriptions are read back

Each part of a description is read back from the value that it is written as: texts, integers
of 64 bits, lists, records and choices.  The values are canonical, so they are read back from
their text as well, in either layout.
-/

namespace TensorGraph
namespace Json

/-! ### Texts and integers -/

@[simp] theorem quotedText?_encode (text : String) :
    quotedText? (Escape.encode text.toList) = some text := by
  rw [quotedText?, Escape.decode_encode, Option.map_some, String.ofList_toList]

theorem text?_ofString (text : String) : text? (ofString text) = some text :=
  quotedText?_encode text

theorem tag?_ofString (text : String) : tag? (ofString text) = some text :=
  quotedText?_encode text

/-- An integer of 64 bits, with or without sign, is read back. -/
theorem integer?_ofInt {number : Int} (low : -(signedLimit : Int) ≤ number)
    (high : number < wordLimit) : integer? (ofInt number) = some number := by
  simp only [integer?, ofInt, Numeral.integer?, Text.Decimal.value_digits, and_self, if_true,
    decide_eq_true_eq]
  split
  · next negative => rw [if_pos (by omega)]; congr 1; omega
  · next positive => rw [if_pos (by omega)]; congr 1; omega

theorem unsigned?_ofNat {number : Nat} (fits : number < wordLimit) :
    unsigned? (ofNat number) = some number := by
  have low : -(signedLimit : Int) ≤ number := by omega
  have high : (number : Int) < wordLimit := by omega
  rw [unsigned?, ofNat_eq_ofInt, integer?_ofInt low high]
  simp

/-- The integers of 64 bits with a sign. -/
def IsSigned (number : Int) : Prop :=
  -(signedLimit : Int) ≤ number ∧ number < signedLimit

instance : DecidablePred IsSigned :=
  fun number => inferInstanceAs (Decidable (-(signedLimit : Int) ≤ number ∧ number < signedLimit))

theorem IsSigned.lt_wordLimit {number : Int} (signed : IsSigned number) : number < wordLimit :=
  Int.lt_trans signed.2 (by decide)

theorem signed?_ofInt {number : Int} (signed : IsSigned number) :
    signed? (ofInt number) = some number := by
  rw [signed?, integer?_ofInt signed.1 signed.lt_wordLimit]
  simp [signed.2]

/-! ### Lists and records -/

theorem listOf?_listOf {α : Type} {item : α → Json} {read : Json → Option α} {items : List α}
    (each : ∀ x ∈ items, read (item x) = some x) :
    Json.listOf? read (Json.listOf item items) = some items := by
  rw [Json.listOf, Json.listOf?, items?, Option.bind_eq_bind, Option.bind_some]
  induction items with
  | nil => rfl
  | cons x items ih =>
      rw [List.map_cons, List.mapM_cons, each x List.mem_cons_self,
        ih fun y member => each y (List.mem_cons_of_mem x member)]
      rfl

/-- The slot of a key among fields with different keys. -/
def Slot.among (fields : List (String × Json)) (key : String) : Slot :=
  match fields.lookup key with
  | some value => .given value
  | none => .omitted

theorem Slot.among_cons (name : String) (value : Json) (fields : List (String × Json))
    (key : String) : Slot.among ((name, value) :: fields) key =
      if key = name then .given value else Slot.among fields key := by
  rw [Slot.among, List.lookup_cons]
  by_cases same : key = name
  · simp [same]
  · simp [beq_eq_false_iff_ne.mpr same, same, Slot.among]

/-- The fields as an object holds them. -/
def encodeFields (fields : List (String × Json)) : List (List Char × Json) :=
  fields.map fun (key, value) => (Escape.encode key.toList, value)

theorem ofFields_eq (fields : List (String × Json)) :
    ofFields fields = .object (encodeFields fields) :=
  rfl

theorem encodeFields_cons (key : String) (value : Json) (fields : List (String × Json)) :
    encodeFields ((key, value) :: fields) =
      (Escape.encode key.toList, value) :: encodeFields fields :=
  rfl

/-- Among fields with different keys, a key has the one value that it is looked up with. -/
theorem valuesOf_encodeFields {fields : List (String × Json)}
    (distinct : (fields.map Prod.fst).Nodup) (key : String) :
    valuesOf key (encodeFields fields) = (fields.lookup key).toList := by
  induction fields with
  | nil => rfl
  | cons field fields ih =>
      obtain ⟨name, value⟩ := field
      obtain ⟨fresh, distinct⟩ := List.nodup_cons.mp distinct
      have later := ih distinct
      rw [valuesOf] at later
      rw [encodeFields_cons, valuesOf]
      by_cases same : name = key
      · subst same
        have absent : fields.lookup name = none := by
          rw [List.lookup_eq_none_iff]
          rintro ⟨other, value⟩ member
          rw [bne_iff_ne]
          rintro rfl
          exact fresh (List.mem_map.mpr ⟨_, member, rfl⟩)
        rw [absent] at later
        simp [later]
      · have other : (key == name) = false := beq_eq_false_iff_ne.mpr (Ne.symm same)
        simp [later, List.lookup_cons, other, same]

theorem slots?_ofFields (keys : List String) {fields : List (String × Json)}
    (distinct : (fields.map Prod.fst).Nodup) :
    slots? keys (ofFields fields) = some (keys.map (Slot.among fields)) := by
  rw [ofFields_eq, slots?, if_pos]
  · induction keys with
    | nil => rfl
    | cons key keys ih =>
        rw [List.mapM_cons, ih, valuesOf_encodeFields distinct, List.map_cons, Slot.among]
        cases fields.lookup key <;> rfl
  · simp [encodeFields]

theorem canonical_listOf {α : Type} {item : α → Json} {items : List α}
    (each : ∀ x ∈ items, Canonical (item x)) : Canonical (Json.listOf item items) :=
  .array (List.forall_mem_map.mpr each)

/-! ### Values that are kept -/

/-- An integer of 64 bits is finite. -/
theorem isKeepable_ofInt {number : Int} (signed : IsSigned number) (room : Nat) :
    isKeepable room (ofInt number) = true := by
  have value : Text.Decimal.value ([] ++ Text.Decimal.digits number.natAbs) = number.natAbs :=
    Text.Decimal.value_digits number.natAbs
  have fits : number.natAbs < wordLimit := by
    have low := signed.1
    have high := signed.2
    have words : 2 * signedLimit = wordLimit := by decide
    omega
  have whole : Numeral.appendDigits 0 (Text.Decimal.digits number.natAbs) =
      (number.natAbs, 0) := by
    have appended := Numeral.appendDigits_value (value.symm ▸ fits)
    rwa [value] at appended
  rw [ofInt, isKeepable, Numeral.isFinite, Numeral.scaled, whole]
  simp [Numeral.appendDigits, Numeral.power]

theorem isKeepable_ofString (text : String) (room : Nat) :
    isKeepable room (ofString text) = true := by
  rw [ofString, isKeepable, Escape.decode_encode]
  rfl

theorem areItemsKeepable_of_forall {room : Nat} {items : List Json}
    (each : ∀ item ∈ items, isKeepable room item = true) : areItemsKeepable room items = true := by
  induction items with
  | nil => rw [areItemsKeepable]
  | cons item items ih =>
      rw [areItemsKeepable, each item List.mem_cons_self,
        ih fun later member => each later (List.mem_cons_of_mem _ member)]
      rfl

theorem isKeepable_ofFields {room : Nat} {fields : List (String × Json)}
    (each : ∀ field ∈ fields, isKeepable room field.2 = true) :
    isKeepable (room + 1) (ofFields fields) = true := by
  have keepable : areFieldsKeepable room (encodeFields fields) = true := by
    induction fields with
    | nil => rw [encodeFields, List.map_nil, areFieldsKeepable]
    | cons field fields ih =>
        rw [encodeFields_cons, areFieldsKeepable, Escape.decode_encode,
          each field List.mem_cons_self,
          ih fun later member => each later (List.mem_cons_of_mem _ member)]
        rfl
  rw [ofFields_eq, isKeepable, Nat.add_sub_cancel, keepable]
  simp

end Json

open Json

/-! ### Choices without data -/

theorem ElementType.ofJson?_toJson (elementType : ElementType) :
    ofJson? elementType.toJson = some elementType := by
  rw [ofJson?, toJson, tag?_ofString, Option.bind_eq_bind, Option.bind_some, ofTag?_tag]

theorem Role.ofJson?_toJson (role : Role) : ofJson? role.toJson = some role := by
  rw [ofJson?, toJson, tag?_ofString, Option.bind_eq_bind, Option.bind_some, ofTag?_tag]

/-! ### Shapes -/

namespace PartialShape

/-- Every known size is a machine word. -/
def Fits : PartialShape → Prop
  | unranked => True
  | ranked dims => ∀ dim ∈ dims, ∀ size ∈ dim, size < wordLimit

instance : DecidablePred Fits
  | unranked => inferInstanceAs (Decidable True)
  | ranked dims => inferInstanceAs (Decidable (∀ dim ∈ dims, ∀ size ∈ dim, size < wordLimit))

theorem dimOfJson?_dimToJson {dim : Dim} (fits : ∀ size ∈ dim, size < wordLimit) :
    dimOfJson? (dimToJson dim) = some dim := by
  cases dim with
  | none => rfl
  | some size =>
      have number := unsigned?_ofNat (fits size rfl)
      rw [dimToJson, dimOfJson?, number]
      · rfl
      · intro null
        cases null

theorem ofJson?_toJson {shape : PartialShape} (fits : shape.Fits) :
    ofJson? shape.toJson = some shape := by
  cases shape with
  | unranked =>
      rw [ofJson?, toJson, slots?_ofFields _ (by simp)]
      rfl
  | ranked dims =>
      have read := listOf?_listOf fun dim member => dimOfJson?_dimToJson (fits dim member)
      rw [ofJson?, toJson, slots?_ofFields _ (by simp)]
      simp only [List.map_cons, List.map_nil, Slot.among, List.lookup_cons_self,
        Option.bind_eq_bind, Option.bind_some, Slot.optional, Json.listOf] at read ⊢
      rw [read]
      rfl

theorem canonical_toJson (shape : PartialShape) : Canonical shape.toJson := by
  refine .fields (List.forall_mem_singleton.mpr ?_)
  cases shape with
  | unranked => exact .null
  | ranked dims =>
      refine canonical_listOf fun dim _ => ?_
      cases dim with
      | none => exact .null
      | some size => exact .natural size

end PartialShape

/-! ### Operators -/

namespace OperatorDescription

/-- The integers of the operator fit 64 bits. -/
def Fits : OperatorDescription → Prop
  | constant values => ∀ value ∈ values, IsSigned value
  | concat axis => IsSigned axis
  | _ => True

instance : DecidablePred Fits
  | constant values => inferInstanceAs (Decidable (∀ value ∈ values, IsSigned value))
  | concat axis => inferInstanceAs (Decidable (IsSigned axis))
  | parameter | result | assign _ | relu | shapeOf | reshape _ => inferInstanceAs (Decidable True)

/-- Attributes are strings, truth values, integers and lists of integers. -/
theorem isKeepable_toJson {operator : OperatorDescription} (fits : operator.Fits) (room : Nat) :
    isKeepable (room + 2) operator.toJson = true := by
  refine isKeepable_ofFields (List.forall_mem_cons.mpr ⟨isKeepable_ofString _ _, ?_⟩)
  cases operator with
  | constant values =>
      refine List.forall_mem_singleton.mpr ?_
      rw [Json.listOf, isKeepable, Nat.add_sub_cancel, areItemsKeepable_of_forall
        (List.forall_mem_map.mpr fun value member => isKeepable_ofInt (fits value member) room)]
      rfl
  | assign stateVariable => exact List.forall_mem_singleton.mpr (isKeepable_ofString _ _)
  | concat axis => exact List.forall_mem_singleton.mpr (isKeepable_ofInt fits _)
  | reshape specialZero => exact List.forall_mem_singleton.mpr (by rw [isKeepable])
  | _ => exact fun _ member => absurd member List.not_mem_nil

theorem attribute?_ofFields {α : Type} (key : String) (value : Json) (read : Json → Option α) :
    attribute? key read (ofFields [(key, value)]) = read value := by
  rw [attribute?, slots?_ofFields _ (by simp)]
  simp [Slot.among, Slot.required]

/-- An operator is read back from its kind and its attributes. -/
theorem ofContent?_attributes {operator : OperatorDescription} (fits : operator.Fits) :
    ofContent? operator.typeName (ofFields operator.attributes) = some operator := by
  cases operator with
  | constant values =>
      have read := listOf?_listOf fun value member => signed?_ofInt (fits value member)
      simp [ofContent?, typeName, attributes, attribute?_ofFields, read]
  | assign stateVariable =>
      simp [ofContent?, typeName, attributes, attribute?_ofFields, text?_ofString]
  | concat axis =>
      simp [ofContent?, typeName, attributes, attribute?_ofFields, signed?_ofInt fits]
  | reshape specialZero =>
      simp [ofContent?, typeName, attributes, attribute?_ofFields, bool?]
  | _ => rfl

theorem attributes_keys (operator : OperatorDescription) :
    ((("type", ofString operator.typeName) :: operator.attributes).map Prod.fst).Nodup := by
  cases operator <;> simp [attributes]

/-- Without its kind, a written operator holds its attributes. -/
theorem filter_encodeFields (operator : OperatorDescription) :
    ((encodeFields (("type", ofString operator.typeName) :: operator.attributes)).filter
      fun (quoted, _) => quotedText? quoted ≠ some "type") =
      encodeFields operator.attributes := by
  have others : (("type", ofString operator.typeName) :: operator.attributes).filter
      (fun field => some field.1 ≠ some "type") = operator.attributes := by
    cases operator <;> simp [attributes]
  rw [encodeFields, List.filter_map]
  simp only [Function.comp_def, quotedText?_encode]
  rw [others, encodeFields]

theorem ofJson?_toJson {operator : OperatorDescription} (fits : operator.Fits) (room : Nat) :
    ofJson? (room + 2) operator.toJson = some operator := by
  have kinds := valuesOf_encodeFields operator.attributes_keys "type"
  have keepable := isKeepable_toJson fits room
  rw [toJson, ofFields_eq] at keepable ⊢
  rw [ofJson?, if_pos keepable]
  simp only [kinds, List.lookup_cons_self, Option.toList_some, filter_encodeFields,
    text?_ofString, Option.bind_eq_bind, Option.bind_some]
  exact ofContent?_attributes fits

theorem canonical_toJson (operator : OperatorDescription) : Canonical operator.toJson := by
  refine .fields (List.forall_mem_cons.mpr ⟨.string _, ?_⟩)
  cases operator with
  | constant values =>
      exact List.forall_mem_singleton.mpr (canonical_listOf fun value _ => .integer value)
  | assign stateVariable => exact List.forall_mem_singleton.mpr (.string stateVariable)
  | concat axis => exact List.forall_mem_singleton.mpr (.integer axis)
  | reshape specialZero => exact List.forall_mem_singleton.mpr (.bool specialZero)
  | _ => exact fun _ member => absurd member List.not_mem_nil

end OperatorDescription

/-! ### Tensors, nodes and graphs -/

namespace Json

/-- A list that is left out where it is empty is read back as the default. -/
theorem orElse_unlessEmpty {α : Type} (key : String) {item : α → Json} {read : Json → Option α}
    (items : List α) (each : ∀ x ∈ items, read (item x) = some x) :
    (Slot.among (unlessEmpty key item items) key).orElse [] (Json.listOf? read) = some items := by
  cases items with
  | nil => rfl
  | cons x items =>
      rw [unlessEmpty, List.isEmpty_cons, if_neg Bool.false_ne_true, Slot.among_cons, if_pos rfl,
        Slot.orElse, listOf?_listOf each]

/-- The key of a list stands once or not at all, so it is apart from other keys. -/
theorem nodup_unlessEmpty {α : Type} {key : String} {item : α → Json} {items : List α}
    {fields : List (String × Json)} (distinct : (key :: fields.map Prod.fst).Nodup) :
    ((fields ++ unlessEmpty key item items).map Prod.fst).Nodup := by
  cases items with
  | nil => exact (List.append_nil fields).symm ▸ (List.nodup_cons.mp distinct).2
  | cons x items =>
      rw [List.map_append]
      exact (List.perm_append_singleton key _).nodup_iff.mpr distinct

theorem canonical_append_unlessEmpty {α : Type} {key : String} {item : α → Json} {items : List α}
    {fields : List (String × Json)} (canonical : ∀ field ∈ fields, Canonical field.2)
    (each : ∀ x ∈ items, Canonical (item x)) :
    Canonical (ofFields (fields ++ unlessEmpty key item items)) := by
  refine .fields (List.forall_mem_append.mpr ⟨canonical, ?_⟩)
  cases items with
  | nil => exact fun _ member => absurd member List.not_mem_nil
  | cons x items => exact List.forall_mem_singleton.mpr (canonical_listOf each)

end Json

namespace TensorDescription

/-- Every known size of the tensor is a machine word. -/
def Fits (tensor : TensorDescription) : Prop :=
  tensor.type.shape.Fits

instance : DecidablePred Fits :=
  fun tensor => inferInstanceAs (Decidable tensor.type.shape.Fits)

theorem ofJson?_toJson {tensor : TensorDescription} (fits : tensor.Fits) :
    ofJson? tensor.toJson = some tensor := by
  have names := orElse_unlessEmpty "tensor_names" tensor.names fun name _ => text?_ofString name
  rw [ofJson?, toJson, slots?_ofFields _ (nodup_unlessEmpty (by simp))]
  simp [Slot.among_cons, Slot.required, names, ElementType.ofJson?_toJson,
    PartialShape.ofJson?_toJson fits]

theorem canonical_toJson (tensor : TensorDescription) : Canonical tensor.toJson := by
  refine canonical_append_unlessEmpty ?_ fun name _ => .string name
  simp only [List.forall_mem_cons]
  exact ⟨.string _, PartialShape.canonical_toJson _, fun _ member => absurd member List.not_mem_nil⟩

end TensorDescription

namespace NodeDescription

/-- Ids and indices are machine words, and so is every known size; the integers of the operator
fit 64 bits. -/
structure Fits (node : NodeDescription) : Prop where
  id : node.id < wordLimit
  operator : node.operator.Fits
  outputs : ∀ tensor ∈ node.outputs, tensor.Fits
  inputs : ∀ input ∈ node.inputs, input.1 < wordLimit ∧ input.2 < wordLimit
  controlDependencies : ∀ dependency ∈ node.controlDependencies, dependency < wordLimit

theorem fits_iff (node : NodeDescription) :
    node.Fits ↔ node.id < wordLimit ∧ node.operator.Fits ∧ (∀ tensor ∈ node.outputs, tensor.Fits) ∧
      (∀ input ∈ node.inputs, input.1 < wordLimit ∧ input.2 < wordLimit) ∧
      ∀ dependency ∈ node.controlDependencies, dependency < wordLimit := by
  constructor
  · intro fits
    exact ⟨fits.id, fits.operator, fits.outputs, fits.inputs, fits.controlDependencies⟩
  · rintro ⟨id, operator, outputs, inputs, dependencies⟩
    exact ⟨id, operator, outputs, inputs, dependencies⟩

instance : DecidablePred Fits :=
  fun node => decidable_of_iff' _ node.fits_iff

theorem inputOfJson?_ofNat {input : Nat × Nat} (fits : input.1 < wordLimit ∧ input.2 < wordLimit) :
    inputOfJson? (.array [.ofNat input.1, .ofNat input.2]) = some input := by
  rw [inputOfJson?, unsigned?_ofNat fits.1, unsigned?_ofNat fits.2]
  rfl

theorem ofJson?_toJson {node : NodeDescription} (fits : node.Fits) (room : Nat) :
    ofJson? (room + 3) node.toJson = some node := by
  have outputs := listOf?_listOf fun tensor member =>
    TensorDescription.ofJson?_toJson (fits.outputs tensor member)
  have inputs := listOf?_listOf fun input member => inputOfJson?_ofNat (fits.inputs input member)
  have dependencies := orElse_unlessEmpty "control_dependencies" node.controlDependencies
    fun dependency member => unsigned?_ofNat (fits.controlDependencies dependency member)
  have operator := OperatorDescription.ofJson?_toJson fits.operator room
  rw [ofJson?, toJson, slots?_ofFields _ (nodup_unlessEmpty (by simp))]
  simp [Slot.among_cons, Slot.required, text?_ofString, unsigned?_ofNat fits.id, outputs, inputs,
    dependencies, operator, Role.ofJson?_toJson]

theorem canonical_toJson (node : NodeDescription) : Canonical node.toJson := by
  refine canonical_append_unlessEmpty ?_ fun dependency _ => .natural dependency
  simp only [List.forall_mem_cons]
  refine ⟨.natural _, .string _, node.operator.canonical_toJson, .string _, ?_, ?_,
    fun _ member => absurd member List.not_mem_nil⟩
  · exact canonical_listOf fun tensor _ => tensor.canonical_toJson
  · refine canonical_listOf fun input _ => .array ?_
    simp only [List.forall_mem_cons]
    exact ⟨.natural _, .natural _, fun _ member => absurd member List.not_mem_nil⟩

end NodeDescription

namespace GraphDescription

/-- All nodes hold integers of 64 bits only. -/
def Fits (graph : GraphDescription) : Prop :=
  ∀ node ∈ graph.nodes, node.Fits

instance : DecidablePred Fits :=
  fun graph => inferInstanceAs (Decidable (∀ node ∈ graph.nodes, node.Fits))

theorem ofJson?_toJson {graph : GraphDescription} (fits : graph.Fits) (room : Nat) :
    ofJson? (room + 5) graph.toJson = some graph := by
  have nodes := listOf?_listOf fun node member =>
    NodeDescription.ofJson?_toJson (fits node member) room
  rw [ofJson?, toJson, slots?_ofFields _ (by simp)]
  simp [Slot.among_cons, Slot.required, text?_ofString, nodes]

theorem canonical_toJson (graph : GraphDescription) : Canonical graph.toJson := by
  refine .fields ?_
  simp only [List.forall_mem_cons]
  exact ⟨.string _, .string _, canonical_listOf fun node _ => node.canonical_toJson,
    fun _ member => absurd member List.not_mem_nil⟩

end GraphDescription

/-- Descriptions whose integers fit 64 bits are read back from their text: graphs in either
layout, and nodes, tensors, operators and shapes from the compact one. -/
theorem descriptions_reread :
    (∀ graph : GraphDescription, graph.Fits →
      (parse graph.toJson.compact).bind (GraphDescription.ofJson? nestingLimit) = some graph ∧
      (parse graph.toJson.indented).bind (GraphDescription.ofJson? nestingLimit) = some graph) ∧
    (∀ node : NodeDescription, node.Fits →
      (parse node.toJson.compact).bind (NodeDescription.ofJson? nestingLimit) = some node) ∧
    (∀ tensor : TensorDescription, tensor.Fits →
      (parse tensor.toJson.compact).bind TensorDescription.ofJson? = some tensor) ∧
    (∀ operator : OperatorDescription, operator.Fits →
      (parse operator.toJson.compact).bind (OperatorDescription.ofJson? nestingLimit) =
        some operator) ∧
    (∀ shape : PartialShape, shape.Fits →
      (parse shape.toJson.compact).bind PartialShape.ofJson? = some shape) := by
  refine ⟨fun graph fits => ?_, fun node fits => ?_, fun tensor fits => ?_,
    fun operator fits => ?_, fun shape fits => ?_⟩
  · rw [graph.canonical_toJson.parse_compact, graph.canonical_toJson.parse_indented]
    have read := GraphDescription.ofJson?_toJson fits 122
    exact ⟨read, read⟩
  · rw [node.canonical_toJson.parse_compact]
    exact NodeDescription.ofJson?_toJson fits 124
  · rw [tensor.canonical_toJson.parse_compact]
    exact TensorDescription.ofJson?_toJson fits
  · rw [operator.canonical_toJson.parse_compact]
    exact OperatorDescription.ofJson?_toJson fits 125
  · rw [shape.canonical_toJson.parse_compact]
    exact PartialShape.ofJson?_toJson fits

/-- A tensor with the largest size, an unknown one and names that have to be escaped. -/
def TensorDescription.extreme : TensorDescription where
  type := { elementType := .i64, shape := .ranked [some (wordLimit - 1), none, some 0] }
  names := ["", "\x00\x1f\"\\/\n\t\r\x08\x0c\x7f"]

/-- A node with the largest id, index and dependency and the least and greatest integers. -/
def NodeDescription.extreme : NodeDescription where
  id := wordLimit - 1
  name := "\x01 é 漢 𝄞"
  operator := .constant [-(signedLimit : Int), 0, signedLimit - 1]
  role := .operation
  outputs := [.extreme, { type := { elementType := .dynamic, shape := .unranked }, names := [] }]
  inputs := [(wordLimit - 1, wordLimit - 1), (0, 0)]
  controlDependencies := [wordLimit - 1, 0]

/-- A graph of two nodes, with dependencies and without. -/
def GraphDescription.extreme : GraphDescription where
  version := ""
  name := "\x02"
  nodes := [.extreme, { NodeDescription.extreme with
    operator := .concat (-(signedLimit : Int)), outputs := [], inputs := [],
    controlDependencies := [] }]

theorem descriptions_reread_extreme :
    GraphDescription.extreme.Fits ∧ NodeDescription.extreme.Fits ∧
    TensorDescription.extreme.Fits ∧ NodeDescription.extreme.operator.Fits ∧
    TensorDescription.extreme.type.shape.Fits ∧
    (parse GraphDescription.extreme.toJson.compact).bind
      (GraphDescription.ofJson? nestingLimit) = some .extreme ∧
    (parse GraphDescription.extreme.toJson.indented).bind
      (GraphDescription.ofJson? nestingLimit) = some .extreme ∧
    (parse NodeDescription.extreme.toJson.compact).bind
      (NodeDescription.ofJson? nestingLimit) = some .extreme ∧
    (parse TensorDescription.extreme.toJson.compact).bind
      TensorDescription.ofJson? = some .extreme ∧
    (parse NodeDescription.extreme.operator.toJson.compact).bind
      (OperatorDescription.ofJson? nestingLimit) = some NodeDescription.extreme.operator ∧
    (parse TensorDescription.extreme.type.shape.toJson.compact).bind
      PartialShape.ofJson? = some TensorDescription.extreme.type.shape := by
  have graphFits : GraphDescription.extreme.Fits := by decide
  have nodeFits : NodeDescription.extreme.Fits := by decide
  have tensorFits : TensorDescription.extreme.Fits := by decide
  obtain ⟨graphs, nodes, tensors, operators, shapes⟩ := descriptions_reread
  have graph := graphs _ graphFits
  exact ⟨graphFits, nodeFits, tensorFits, nodeFits.operator, tensorFits, graph.1, graph.2,
    nodes _ nodeFits, tensors _ tensorFits, operators _ nodeFits.operator, shapes _ tensorFits⟩

end TensorGraph
