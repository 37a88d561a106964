import HandlerRegistry.Keyed
import HandlerRegistry.Text.Quoted
import HandlerRegistry.Text.Utf8

/-!
# Handler tables

A table maps names to handlers and remembers for how many handlers it was made. It may hold more.

* `Table.new?`: an empty table, if its slots can be reserved.
* `Table.insert`: one handler entered, with the handler that it displaces.
* `Table.get?`, `Table.names`, `Table.sorted`: the views of a table.
* `get?_insert`: after an insertion one name has another handler, and no other name has.
-/

namespace HandlerRegistry.Dispatch
set_option autoImplicit false

variable {α : Type}

/-- A table of handlers of some type. -/
structure Table (α : Type) where
  entries : List (String × α)
  /-- The number of slots asked for when the table was made. -/
  capacity : UInt64
  /-- No name has two handlers. -/
  distinct : (entries.map Prod.fst).Nodup

namespace Table

/-- From this number on, slots cannot be reserved. -/
def slotLimit : Nat := 0x1000000000000000

/-- An empty table with slots for a number of handlers. -/
def new? (capacity : UInt64) : Option (Table α) :=
  if capacity.toNat < slotLimit then some ⟨[], capacity, by simp⟩ else none

def get? (table : Table α) (name : String) : Option α := table.entries.lookup name

def contains (table : Table α) (name : String) : Bool := (table.get? name).isSome

/-- The table with a handler entered, and the handler that it displaces. -/
def insert (table : Table α) (name : String) (handler : α) : Option α × Table α :=
  (table.get? name,
    ⟨Keyed.set name handler table.entries, table.capacity,
      Keyed.nodup_set name handler table.entries table.distinct⟩)

/-- The table with several handlers entered, and what each of them displaced. -/
def insertAll (table : Table α) : List (String × α) → List (Option α) × Table α
  | [] => ([], table)
  | (name, handler) :: rest =>
    let first := table.insert name handler
    let others := insertAll first.2 rest
    (first.1 :: others.1, others.2)

def size (table : Table α) : Nat := table.entries.length

def isEmpty (table : Table α) : Bool := table.entries.isEmpty

def names (table : Table α) : List String := (table.entries.map Prod.fst).mergeSort Utf8.le

/-- The entries in the order of their names. -/
def sorted (table : Table α) : List (String × α) :=
  table.entries.mergeSort fun a b => Utf8.le a.1 b.1

/-- A table as it is shown to a programmer. -/
def describe (table : Table α) : String :=
  "HandlerTable \x7b names: " ++ Text.quotedList table.names ++ ", capacity: " ++
    table.capacity.toNat.repr ++ " \x7d"

/-! ## The map that a table is -/

theorem get?_insert (table : Table α) (name other : String) (handler : α) :
    (table.insert name handler).2.get? other =
      if other = name then some handler else table.get? other :=
  Keyed.lookup_set name other handler table.entries

theorem get?_of_new? {capacity : UInt64} {table : Table α} (h : new? capacity = some table)
    (name : String) : table.get? name = none := by
  unfold new? at h
  split at h
  · cases h
    rfl
  · cases h

theorem contains_iff (table : Table α) (name : String) :
    table.contains name = true ↔ name ∈ table.entries.map Prod.fst :=
  Keyed.lookup_isSome_iff name table.entries

theorem size_insert (table : Table α) (name : String) (handler : α) :
    (table.insert name handler).2.size =
      if table.contains name then table.size else table.size + 1 := by
  have h := congrArg List.length (Keyed.map_fst_set name handler table.entries)
  simp only [← contains_iff] at h
  simp only [size, insert]
  split at h <;> rename_i hc <;> simpa [hc] using h

end Table
end HandlerRegistry.Dispatch
