/-!
# Numbered stores

Values under numbers that are given out once, counting from one.  A number
whose value was erased, or for which none was ever stored, stays empty.
-/

namespace TensorGraph

/-- Values in numbered slots; the slot of number zero is never used. -/
structure Store (α : Type) where
  slots : Array (Option α)
  deriving Inhabited

namespace Store

variable {α : Type}

/-- The store that has given out no number. -/
def empty : Store α where
  slots := #[none]

/-- The next number to be given out. -/
def nextId (store : Store α) : Nat :=
  store.slots.size

def get? (store : Store α) (id : Nat) : Option α :=
  (store.slots[id]?).join

/-- Whether there is a value under a number. -/
def contains (store : Store α) (id : Nat) : Bool :=
  (store.get? id).isSome

/-- Store a value under the next number. -/
def push (store : Store α) (value : α) : Store α where
  slots := store.slots.push (some value)

def modify (store : Store α) (id : Nat) (change : α → α) : Store α where
  slots := store.slots.modify id (Option.map change)

def erase (store : Store α) (id : Nat) : Store α where
  slots := store.slots.modify id fun _ => none

def mapValues (store : Store α) (change : α → α) : Store α where
  slots := store.slots.map (Option.map change)

/-- Keep the values under the numbers that satisfy a condition. -/
def restrict (store : Store α) (keeps : Nat → Bool) : Store α where
  slots := store.slots.mapIdx fun id slot => if keeps id then slot else none

/-- The numbers that have a value, latest first. -/
def ids (store : Store α) : List Nat :=
  ((List.range store.slots.size).filter store.contains).reverse

/-- The values, in the order of their numbers. -/
def values (store : Store α) : List α :=
  store.slots.toList.filterMap id

@[simp] theorem nextId_push (store : Store α) (value : α) :
    (store.push value).nextId = store.nextId + 1 :=
  Array.size_push _

@[simp] theorem nextId_modify (store : Store α) (id : Nat) (change : α → α) :
    (store.modify id change).nextId = store.nextId :=
  Array.size_modify

@[simp] theorem nextId_erase (store : Store α) (id : Nat) :
    (store.erase id).nextId = store.nextId :=
  Array.size_modify

@[simp] theorem nextId_mapValues (store : Store α) (change : α → α) :
    (store.mapValues change).nextId = store.nextId :=
  Array.size_map

@[simp] theorem nextId_restrict (store : Store α) (keeps : Nat → Bool) :
    (store.restrict keeps).nextId = store.nextId :=
  Array.size_mapIdx

theorem get?_push (store : Store α) (value : α) (id : Nat) :
    (store.push value).get? id = if id = store.nextId then some value else store.get? id := by
  simp only [get?, push, nextId, Array.getElem?_push]
  split <;> simp_all

theorem get?_modify (store : Store α) (target : Nat) (change : α → α) (id : Nat) :
    (store.modify target change).get? id =
      if target = id then (store.get? id).map change else store.get? id := by
  simp only [get?, modify, Array.getElem?_modify]
  split
  · cases store.slots[id]? <;> simp
  · rfl

theorem modify_eq_self {store : Store α} {id : Nat} {change : α → α}
    (same : ∀ value, store.get? id = some value → change value = value) :
    store.modify id change = store := by
  have slots : store.slots.modify id (Option.map change) = store.slots := by
    apply Array.ext_getElem?
    intro place
    rw [Array.getElem?_modify]
    split
    next here =>
      subst here
      rcases found : store.slots[id]? with _ | _ | value
      · rfl
      · rfl
      · have there : store.get? id = some value := by
          rw [get?, found]
          rfl
        rw [Option.map_some, Option.map_some, same value there]
    · rfl
  rw [modify, slots]

theorem modify_comm (store : Store α) {first second : Nat}
    (different : first ≠ second) (change other : α → α) :
    (store.modify first change).modify second other =
      (store.modify second other).modify first change := by
  have slots : (store.slots.modify first (Option.map change)).modify second (Option.map other) =
      (store.slots.modify second (Option.map other)).modify first (Option.map change) := by
    apply Array.ext_getElem?
    intro place
    simp only [Array.getElem?_modify]
    by_cases atFirst : first = place <;> by_cases atSecond : second = place <;>
      simp_all
  rw [modify, modify, slots]
  rfl

theorem modify_push (store : Store α) (value : α) (change : α → α) :
    (store.push value).modify store.nextId change = store.push (change value) := by
  have slots : (store.slots.push (some value)).modify store.slots.size (Option.map change) =
      store.slots.push (some (change value)) := by
    apply Array.ext_getElem?
    intro place
    simp only [Array.getElem?_modify, Array.getElem?_push]
    by_cases here : place = store.slots.size
    · simp [here]
    · simp [here, Ne.symm here]
  rw [modify, push, nextId, slots]
  rfl

theorem get?_erase (store : Store α) (target id : Nat) :
    (store.erase target).get? id = if target = id then none else store.get? id := by
  simp only [get?, erase, Array.getElem?_modify]
  split
  · cases store.slots[id]? <;> simp
  · rfl

theorem get?_mapValues (store : Store α) (change : α → α) (id : Nat) :
    (store.mapValues change).get? id = (store.get? id).map change := by
  simp only [get?, mapValues, Array.getElem?_map]
  cases store.slots[id]? <;> simp

theorem get?_restrict (store : Store α) (keeps : Nat → Bool) (id : Nat) :
    (store.restrict keeps).get? id = if keeps id then store.get? id else none := by
  simp only [get?, restrict, Array.getElem?_mapIdx]
  cases store.slots[id]? <;> simp

theorem mem_ids {store : Store α} {id : Nat} :
    id ∈ store.ids ↔ ∃ value, store.get? id = some value := by
  simp only [ids, contains, List.mem_reverse, List.mem_filter, List.mem_range,
    Option.isSome_iff_exists]
  constructor
  · exact And.right
  · rintro ⟨value, found⟩
    refine ⟨?_, value, found⟩
    simp only [get?] at found
    cases slot : store.slots[id]? with
    | none => simp [slot] at found
    | some _ => exact (Array.getElem?_eq_some_iff.mp slot).1

end Store
end TensorGraph
