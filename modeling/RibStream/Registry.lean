/-
This file numbers a list of names.
There is a table for each direction, and both tables are filled in one pass over the list.
-/

import RibStream.Vocabulary

namespace RibStream

/-- A table has at most one entry for each key. -/
structure Table (Key Value : Type) where
  entries : List (Key × Value)
  distinct : (entries.map Prod.fst).Nodup

namespace Table

variable {Key Value : Type} [DecidableEq Key]

def empty : Table Key Value :=
  ⟨[], List.nodup_nil⟩

def find? (table : Table Key Value) (key : Key) : Option Value :=
  (table.entries.find? fun entry => decide (entry.1 = key)).map Prod.snd

def size (table : Table Key Value) : Nat :=
  table.entries.length

/-- The entries with other keys. -/
def others (table : Table Key Value) (key : Key) : List (Key × Value) :=
  table.entries.filter fun entry => decide (entry.1 ≠ key)

theorem others_distinct (table : Table Key Value) (key : Key) (value : Value) :
    (((key, value) :: table.others key).map Prod.fst).Nodup := by
  rw [List.map_cons, List.nodup_cons]
  constructor
  · intro member
    obtain ⟨entry, kept, same⟩ := List.mem_map.mp member
    exact of_decide_eq_true (List.mem_filter.mp kept).2 same
  · exact (List.filter_sublist.map Prod.fst).nodup table.distinct

/-- A value takes the place of an earlier one with the same key. -/
def insert (table : Table Key Value) (key : Key) (value : Value) : Table Key Value :=
  ⟨(key, value) :: table.others key, table.others_distinct key value⟩

theorem find?_others (table : Table Key Value) {key other : Key} (different : other ≠ key) :
    (table.others key).find? (fun entry => decide (entry.1 = other)) =
      table.entries.find? fun entry => decide (entry.1 = other) := by
  rw [others, List.find?_filter]
  congr 1
  funext entry
  by_cases same : entry.1 = other
  · simp [same, different]
  · simp [same]

theorem find?_insert (table : Table Key Value) (key : Key) (value : Value) (other : Key) :
    (table.insert key value).find? other = if other = key then some value else table.find? other := by
  have entries : (table.insert key value).entries = (key, value) :: table.others key := rfl
  rw [find?, entries, List.find?_cons]
  by_cases same : other = key
  · simp [same]
  · rw [decide_eq_false (Ne.symm same), find?_others table same, if_neg same]
    rfl

theorem ne_of_find?_eq_none {table : Table Key Value} {key : Key} (absent : table.find? key = none)
    {entry : Key × Value} (member : entry ∈ table.entries) : entry.1 ≠ key := by
  have nowhere := List.find?_eq_none.mp (Option.map_eq_none_iff.mp absent) entry member
  simpa using nowhere

theorem size_insert {table : Table Key Value} {key : Key} (fresh : table.find? key = none)
    (value : Value) : (table.insert key value).size = table.size + 1 := by
  have unchanged : table.others key = table.entries :=
    List.filter_eq_self.mpr fun entry member => decide_eq_true (ne_of_find?_eq_none fresh member)
  calc (table.insert key value).size
      = (table.others key).length + 1 := List.length_cons
    _ = table.size + 1 := by rw [unchanged, size]

end Table

/-- The names by their handles and the handles by their names. -/
structure Registry where
  names : Table Nat String
  handles : Table String Nat

namespace Registry

def empty : Registry :=
  ⟨.empty, .empty⟩

def register (registry : Registry) (name : String) (handle : Nat) : Registry :=
  ⟨registry.names.insert handle name, registry.handles.insert name handle⟩

/-- The handles are counted from one. Those of fewer than 2^32 names fit in 32 bits. -/
def ofNames (names : List String) : Registry :=
  (names.zipIdx 1).foldl (fun registry entry => registry.register entry.1 entry.2) .empty

def name (registry : Registry) (handle : Nat) : Except Error String :=
  match registry.names.find? handle with
  | some name => .ok name
  | none => .error (.badHandle handle)

def handle (registry : Registry) (name : String) : Except Error Nat :=
  match registry.handles.find? name with
  | some handle => .ok handle
  | none => .error (.badToken name)

def size (registry : Registry) : Nat :=
  registry.names.size

def isEmpty (registry : Registry) : Bool :=
  registry.names.entries.isEmpty

end Registry

end RibStream
