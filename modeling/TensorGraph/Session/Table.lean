/-!
# Tables of handles

Values under text handles.  A handle has one value at most; giving it another
one replaces the former.
-/

namespace TensorGraph

/-- Values under handles, in the order in which the handles were first used. -/
structure Table (α : Type) where
  entries : List (String × α)
  deriving Inhabited

namespace Table

variable {α : Type}

/-- The table without handles. -/
def empty : Table α where
  entries := []

/-- The value of a handle. -/
def get? (table : Table α) (handle : String) : Option α :=
  (table.entries.find? (·.1 = handle)).map Prod.snd

/-- Remove a handle. -/
def erase (table : Table α) (handle : String) : Table α where
  entries := table.entries.filter (·.1 ≠ handle)

/-- Give a value to a handle, which loses the one it had. -/
def insert (table : Table α) (handle : String) (value : α) : Table α where
  entries := (table.erase handle).entries ++ [(handle, value)]

/-- The values of all handles. -/
def values (table : Table α) : List α :=
  table.entries.map Prod.snd

/-- Change every value. -/
def map {β : Type} (table : Table α) (change : α → β) : Table β where
  entries := table.entries.map fun (handle, value) => (handle, change value)

theorem get?_erase (table : Table α) (removed handle : String) :
    (table.erase removed).get? handle = if handle = removed then none else table.get? handle := by
  simp only [get?, erase, List.find?_filter]
  split
  · next same =>
    subst same
    simp
  · next different =>
    congr 2
    funext entry
    by_cases found : entry.1 = handle <;> simp_all

theorem get?_insert (table : Table α) (added handle : String) (value : α) :
    (table.insert added value).get? handle =
      if handle = added then some value else table.get? handle := by
  have former := table.get?_erase added handle
  simp only [get?, insert, List.find?_append, Option.map_or] at former ⊢
  rw [former]
  by_cases same : handle = added
  · simp [same]
  · have different : ¬ added = handle := fun equal => same equal.symm
    simp [same, different]

end Table
end TensorGraph
