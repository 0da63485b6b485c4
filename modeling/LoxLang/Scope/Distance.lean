import LoxLang.Tree.Basic

/-!
# The distance table

For each occurrence of a name that is bound in a local scope, the table holds
the number of scopes between the occurrence and its declaration. An occurrence
that is not in the table means a global name.
-/

namespace LoxLang

set_option autoImplicit false

/-- Distances by node number; numbers are dense, so they index an array. -/
structure DistanceTable where
  slots : Array (Option Nat)

namespace DistanceTable

/-- The table without entries. -/
def empty : DistanceTable := ⟨#[]⟩

/-- The distance of a node. -/
def find? (table : DistanceTable) (id : Nat) : Option Nat :=
  match table.slots[id]? with
  | some slot => slot
  | none => none

/-- Records the distance of a node. -/
def insert (table : DistanceTable) (id : Nat) (distance : Nat) : DistanceTable :=
  if id < table.slots.size then ⟨table.slots.setIfInBounds id (some distance)⟩
  else ⟨(table.slots ++ Array.replicate (id - table.slots.size) none).push (some distance)⟩

/-- Records the distances of several nodes, the first entry of the list
last. -/
def insertAll (table : DistanceTable) : List (Nat × Nat) → DistanceTable
  | [] => table
  | (id, distance) :: rest => (table.insertAll rest).insert id distance

@[simp] theorem find?_empty (id : Nat) : empty.find? id = none := by
  simp [empty, find?]

/-- The slots in front of a new one, filled up to its place. -/
theorem size_filled {table : DistanceTable} {id : Nat} (new : ¬ id < table.slots.size) :
    (table.slots ++ Array.replicate (id - table.slots.size) none).size = id := by
  simp only [Array.size_append, Array.size_replicate]
  omega

/-- A distance just recorded is found. -/
@[simp] theorem find?_insert_self (table : DistanceTable) (id distance : Nat) :
    (table.insert id distance).find? id = some distance := by
  by_cases known : id < table.slots.size
  · simp [insert, find?, known]
  · simp only [insert, if_neg known, find?, Array.getElem?_push, size_filled known, if_pos]

/-- Recording a distance does not touch other nodes. -/
theorem find?_insert_of_ne {id other : Nat} (distinct : other ≠ id) (table : DistanceTable)
    (distance : Nat) : (table.insert id distance).find? other = table.find? other := by
  by_cases known : id < table.slots.size
  · simp [insert, find?, known, Ne.symm distinct]
  · simp only [insert, if_neg known, find?, Array.getElem?_push, size_filled known,
      if_neg distinct, Array.getElem?_append, Array.getElem?_replicate]
    by_cases inside : other < table.slots.size
    · simp [inside]
    · by_cases padded : other - table.slots.size < id - table.slots.size
      · simp [inside, padded]
      · simp [inside, padded]

end DistanceTable

end LoxLang
