import TensorGraph.Proofs.Tokens

/-!
# Written values are read back

The reader takes one step for each token, so what it makes of a text is what it makes of the
tokens one by one.  A value in either layout takes it from the place where a value is expected
to the place after that value, inside whatever arrays and objects are open, and a text that
holds one value is that value.
-/

namespace TensorGraph.Json

open Token (Written)

/-- Values whose strings are escaped as they are written and whose numbers are integers. -/
inductive Canonical : Json → Prop where
  | null : Canonical null
  | bool (truth : Bool) : Canonical (bool truth)
  | integer (number : Int) : Canonical (ofInt number)
  | string (text : String) : Canonical (ofString text)
  | array {items : List Json} (each : ∀ item ∈ items, Canonical item) : Canonical (array items)
  | fields {fields : List (String × Json)} (each : ∀ field ∈ fields, Canonical field.2) :
      Canonical (ofFields fields)

theorem ofNat_eq_ofInt (number : Nat) : ofNat number = ofInt number := by
  simp [ofNat, ofInt]

theorem Canonical.natural (number : Nat) : Canonical (ofNat number) := by
  rw [ofNat_eq_ofInt]
  exact .integer number

/-- A layout puts nothing but blanks between tokens. -/
structure Layout.Blank (layout : Layout) : Prop where
  lineAt : ∀ depth, ∀ c ∈ layout.lineAt depth, Token.isBlank c = true
  gap : ∀ c ∈ layout.gap, Token.isBlank c = true

namespace Layout

theorem blank_compact : compact.Blank where
  lineAt _ _ member := absurd member List.not_mem_nil
  gap _ member := absurd member List.not_mem_nil

theorem blank_indented : indented.Blank where
  lineAt depth c member := by
    rcases List.mem_cons.mp member with newline | space
    · rw [newline]
      rfl
    · rw [List.eq_of_mem_replicate space]
      rfl
  gap c member := by
    rw [List.mem_singleton.mp member]
    rfl

end Layout

namespace Reading

/-- What the reader makes of a whole text. -/
def consume (state : Reading) (text : List Char) : Option Reading := do
  (← Token.ofText text).foldlM step state

theorem consume_nil (state : Reading) : consume state [] = some state := by
  rw [consume, Token.ofText]
  rfl

/-- Blanks do not matter. -/
theorem consume_blanks {blanks : List Char} (allBlank : ∀ c ∈ blanks, Token.isBlank c = true)
    (state : Reading) (rest : List Char) :
    consume state (blanks ++ rest) = consume state rest := by
  rw [consume, consume, Token.ofText_blanks allBlank]

/-- The first token takes one step. -/
theorem consume_before {token : Token} {rest : List Char} (written : token.Written)
    (ends : token.EndsBefore rest) (state : Reading) :
    consume state (token.before rest) = (step state token).bind (consume · rest) := by
  rw [consume, written.ofText_before ends]
  cases tokens : Token.ofText rest with
  | none => cases stepped : step state token <;> simp [consume, tokens]
  | some tokens => simp [consume, tokens, List.foldlM_cons]

/-- A value is expected inside the open arrays and objects. -/
def Expects (outer : List Enclosing) (state : Reading) : Prop :=
  ∀ token, token ≠ .closeArray → step state token = begin outer token

theorem expects_value (outer : List Enclosing) : Expects outer (.value outer) :=
  fun _ _ => rfl

theorem expects_itemOrEnd (outer : List Enclosing) :
    Expects (.array [] :: outer) (.itemOrEnd outer) := by
  intro token open_
  cases token <;> first | rfl | exact absurd rfl open_

/-- The reader takes a written value from where it is expected to where it is finished. -/
def Rereads (layout : Layout) (value : Json) : Prop :=
  ∀ {outer : List Enclosing} {state : Reading} {rest : List Char} (depth : Nat),
    Expects outer state → Numeral.EndsAt rest →
      consume state (write layout depth value rest) = consume (.after value outer) rest

variable {layout : Layout} {blanks rest : List Char} {outer : List Enclosing}

theorem endsAt_blanks (allBlank : ∀ c ∈ blanks, Token.isBlank c = true)
    (ends : Numeral.EndsAt rest) : Numeral.EndsAt (blanks ++ rest) := by
  cases blanks with
  | nil => exact ends
  | cons c blanks =>
      have first := allBlank c List.mem_cons_self
      simp only [Token.isBlank, Bool.or_eq_true, decide_eq_true_eq] at first
      rcases first with ((rfl | rfl) | rfl) | rfl <;>
        exact ⟨rfl, by decide, by decide, by decide⟩

theorem endsAt_close (allBlank : ∀ c ∈ blanks, Token.isBlank c = true) (rest : List Char) :
    Numeral.EndsAt (blanks ++ Token.closeArray.before rest) ∧
      Numeral.EndsAt (blanks ++ Token.closeObject.before rest) :=
  ⟨endsAt_blanks allBlank ⟨rfl, by decide, by decide, by decide⟩,
    endsAt_blanks allBlank ⟨rfl, by decide, by decide, by decide⟩⟩

theorem endsAt_writeItems (depth : Nat) (items : List Json) (ends : Numeral.EndsAt rest) :
    Numeral.EndsAt (writeItems layout depth items rest) := by
  cases items with
  | nil => exact ends
  | cons item items => exact ⟨rfl, by decide, by decide, by decide⟩

theorem endsAt_writeFields (depth : Nat) (fields : List (List Char × Json))
    (ends : Numeral.EndsAt rest) :
    Numeral.EndsAt (writeFields layout depth fields rest) := by
  cases fields with
  | nil => exact ends
  | cons field fields => exact ⟨rfl, by decide, by decide, by decide⟩

/-- The items after the first and the bracket that closes the array. -/
theorem consume_writeItems (blank : layout.Blank) {items : List Json}
    (each : ∀ item ∈ items, Rereads layout item) (depth : Nat) (item : Json)
    (earlier : List Json) (allBlank : ∀ c ∈ blanks, Token.isBlank c = true) :
    consume (.after item (.array earlier :: outer))
        (writeItems layout depth items (blanks ++ Token.closeArray.before rest)) =
      consume (.after (.array (earlier.reverse ++ item :: items)) outer) rest := by
  induction items generalizing item earlier with
  | nil =>
      rw [writeItems, consume_blanks allBlank, consume_before .closeArray trivial, step,
        Option.bind_some, List.reverse_cons]
  | cons next items ih =>
      have ends : Numeral.EndsAt (writeItems layout depth items _) :=
        endsAt_writeItems depth items (endsAt_close allBlank rest).1
      rw [writeItems, consume_before .comma trivial, step, Option.bind_some,
        consume_blanks (blank.lineAt depth),
        each next List.mem_cons_self depth (expects_value _) ends,
        ih fun item member => each item (List.mem_cons_of_mem _ member)]
      simp only [List.reverse_cons, List.append_assoc, List.singleton_append]

/-- The colon and the value of a field. -/
theorem consume_colon (blank : layout.Blank) {value : Json} (reread : Rereads layout value)
    (depth : Nat) (key : List Char) (earlier : List (List Char × Json))
    (ends : Numeral.EndsAt rest) :
    consume (.colon earlier key outer)
        (Token.colon.before (layout.gap ++ write layout depth value rest)) =
      consume (.after value (.object earlier key :: outer)) rest := by
  rw [consume_before .colon trivial, step, Option.bind_some, consume_blanks blank.gap,
    reread depth (expects_value _) ends]

/-- The fields after the first and the brace that closes the object. -/
theorem consume_writeFields (blank : layout.Blank) {fields : List (List Char × Json)}
    (written : ∀ field ∈ fields, (Token.string field.1).Written)
    (each : ∀ field ∈ fields, Rereads layout field.2) (depth : Nat) (key : List Char)
    (value : Json) (earlier : List (List Char × Json))
    (allBlank : ∀ c ∈ blanks, Token.isBlank c = true) :
    consume (.after value (.object earlier key :: outer))
        (writeFields layout depth fields (blanks ++ Token.closeObject.before rest)) =
      consume (.after (.object (earlier.reverse ++ (key, value) :: fields)) outer) rest := by
  induction fields generalizing key value earlier with
  | nil =>
      rw [writeFields, consume_blanks allBlank, consume_before .closeObject trivial, step,
        Option.bind_some, List.reverse_cons]
  | cons next fields ih =>
      have ends : Numeral.EndsAt (writeFields layout depth fields _) :=
        endsAt_writeFields depth fields (endsAt_close allBlank rest).2
      rw [writeFields, consume_before .comma trivial, step, Option.bind_some,
        consume_blanks (blank.lineAt depth),
        consume_before (written next List.mem_cons_self) trivial, step, Option.bind_some,
        consume_colon blank (each next List.mem_cons_self) depth _ _ ends,
        ih (fun field member => written field (List.mem_cons_of_mem _ member))
          fun field member => each field (List.mem_cons_of_mem _ member)]
      simp only [List.reverse_cons, List.append_assoc, List.singleton_append]

theorem rereads_array (blank : layout.Blank) {items : List Json}
    (each : ∀ item ∈ items, Rereads layout item) : Rereads layout (.array items) := by
  intro outer state rest depth expects ends
  cases items with
  | nil =>
      rw [write, consume_before .openArray trivial, expects _ (by decide), begin,
        Option.bind_some, consume_before .closeArray trivial, step, Option.bind_some]
  | cons item items =>
      have closes := (endsAt_close (blank.lineAt depth) rest).1
      rw [write, consume_before .openArray trivial, expects _ (by decide), begin,
        Option.bind_some, consume_blanks (blank.lineAt (depth + 1)),
        each item List.mem_cons_self (depth + 1) (expects_itemOrEnd outer)
          (endsAt_writeItems (depth + 1) items closes),
        consume_writeItems blank (fun item member => each item (List.mem_cons_of_mem _ member))
          (depth + 1) item [] (blank.lineAt depth)]
      rfl

theorem rereads_object (blank : layout.Blank) {fields : List (List Char × Json)}
    (written : ∀ field ∈ fields, (Token.string field.1).Written)
    (each : ∀ field ∈ fields, Rereads layout field.2) : Rereads layout (.object fields) := by
  intro outer state rest depth expects ends
  cases fields with
  | nil =>
      rw [write, consume_before .openObject trivial, expects _ (by decide), begin,
        Option.bind_some, consume_before .closeObject trivial, step, Option.bind_some]
  | cons field fields =>
      have closes := (endsAt_close (blank.lineAt depth) rest).2
      rw [write, consume_before .openObject trivial, expects _ (by decide), begin,
        Option.bind_some, consume_blanks (blank.lineAt (depth + 1)),
        consume_before (written field List.mem_cons_self) trivial, step, Option.bind_some,
        consume_colon blank (each field List.mem_cons_self) (depth + 1) _ _
          (endsAt_writeFields (depth + 1) fields closes),
        consume_writeFields blank
          (fun field member => written field (List.mem_cons_of_mem _ member))
          (fun field member => each field (List.mem_cons_of_mem _ member)) (depth + 1) _ _ []
          (blank.lineAt depth)]
      rfl

/-- Every canonical value is read back, whatever follows it. -/
theorem rereads_of_canonical (blank : layout.Blank) {value : Json} (canonical : Canonical value) :
    Rereads layout value := by
  induction canonical with
  | null =>
      intro outer state rest depth expects ends
      rw [write, consume_before .null trivial, expects _ (by decide), begin, Option.bind_some]
  | bool truth =>
      intro outer state rest depth expects ends
      rw [write, consume_before (.bool truth) trivial, expects _ (by simp), begin,
        Option.bind_some]
  | integer number =>
      intro outer state rest depth expects ends
      rw [ofInt, write, consume_before (.integer _ _) ends, expects _ (by simp), begin,
        Option.bind_some]
  | string text =>
      intro outer state rest depth expects ends
      rw [ofString, write, consume_before (.string _) trivial, expects _ (by simp), begin,
        Option.bind_some]
  | array _ ih => exact rereads_array blank ih
  | fields _ ih =>
      refine rereads_object blank (List.forall_mem_map.mpr fun _ _ => .string _)
        (List.forall_mem_map.mpr ih)

end Reading

/-- A text in either layout spells the value that was written. -/
theorem Canonical.parse_write {value : Json} (canonical : Canonical value) {layout : Layout}
    (blank : layout.Blank) :
    parse (String.ofList (write layout 0 value [])) = some value := by
  have reread : Reading.consume (.value []) (write layout 0 value []) =
      some (.after value []) := by
    have ends : Numeral.EndsAt [] := trivial
    rw [Reading.rereads_of_canonical blank canonical 0 (Reading.expects_value []) ends,
      Reading.consume_nil]
  rw [Reading.consume] at reread
  obtain ⟨tokens, tokenized, stepped⟩ := Option.bind_eq_some_iff.mp reread
  rw [parse, String.toList_ofList, tokenized, Option.bind_eq_bind, Option.bind_some, ofTokens,
    stepped]
  rfl

theorem Canonical.parse_compact {value : Json} (canonical : Canonical value) :
    parse value.compact = some value :=
  canonical.parse_write Layout.blank_compact

theorem Canonical.parse_indented {value : Json} (canonical : Canonical value) :
    parse value.indented = some value :=
  canonical.parse_write Layout.blank_indented

end TensorGraph.Json
