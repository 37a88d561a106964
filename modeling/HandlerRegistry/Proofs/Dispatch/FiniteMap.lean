import HandlerRegistry.Proofs.Dispatch.Table
import Mathlib.Data.Finset.Card

/-! # A table is the finite map of its insertions

What is found under a name is what was entered last under it. One insertion adds to this map, so a
run of insertions does (`isMap_insertAll`), and all views of a table follow from what is found in it.
A table and its clone part ways: each is the map of its own insertions (`insertAll_clones`). -/

namespace HandlerRegistry.Dispatch.Table
set_option autoImplicit false

variable {α : Type} {table : Table α}

/-! ## The last insertion under a name -/

/-- The handler of the last insertion under a name that has the same bytes. -/
def lastUnder (name : String) (inserts : List (String × α)) : Option α :=
  (inserts.reverse.find? fun entry => Utf8.encode entry.1 == Utf8.encode name).map Prod.snd

theorem encode_beq_iff {a b : String} : (Utf8.encode a == Utf8.encode b) = true ↔ a = b := by
  rw [beq_iff_eq]
  exact ⟨fun h => Utf8.encode_injective h, fun h => h ▸ rfl⟩

theorem lastUnder_concat (name other : String) (handler : α) (inserts : List (String × α)) :
    lastUnder other (inserts ++ [(name, handler)]) =
      if other = name then some handler else lastUnder other inserts := by
  rw [lastUnder, List.reverse_append, List.reverse_singleton, List.singleton_append,
    List.find?_cons]
  by_cases h : other = name
  · rw [if_pos h, encode_beq_iff.mpr h.symm]
    rfl
  · have hn : (Utf8.encode name == Utf8.encode other) = false :=
      Bool.eq_false_iff.mpr fun e => h (encode_beq_iff.mp e).symm
    rw [if_neg h, hn, lastUnder]

theorem isSome_lastUnder {name : String} {inserts : List (String × α)} :
    (lastUnder name inserts).isSome = true ↔ name ∈ inserts.map Prod.fst := by
  rw [lastUnder, Option.isSome_map, List.find?_isSome, List.mem_map]
  simp only [List.mem_reverse, encode_beq_iff]

/-! ## Insertions -/

/-- Under every name is found what was entered last under it. -/
def IsMap (table : Table α) (inserts : List (String × α)) : Prop :=
  ∀ name, table.get? name = lastUnder name inserts

theorem isMap_of_new? {slots : UInt64} (h : new? slots = some table) : table.IsMap [] :=
  fun name => get?_of_new? h name

theorem IsMap.insert {inserts : List (String × α)} (h : table.IsMap inserts) (name : String)
    (handler : α) : (table.insert name handler).2.IsMap (inserts ++ [(name, handler)]) := by
  intro other
  rw [get?_insert, lastUnder_concat, h]

theorem IsMap.insertAll {inserts : List (String × α)} (h : table.IsMap inserts)
    (more : List (String × α)) : (table.insertAll more).2.IsMap (inserts ++ more) := by
  induction more generalizing table inserts with
  | nil =>
    rw [List.append_nil]
    exact h
  | cons entry rest ih =>
    have hr := ih (h.insert entry.1 entry.2)
    rw [List.append_assoc, List.singleton_append] at hr
    exact hr

theorem insertAll_append (table : Table α) (before after : List (String × α)) :
    table.insertAll (before ++ after) =
      ((table.insertAll before).1 ++ ((table.insertAll before).2.insertAll after).1,
        ((table.insertAll before).2.insertAll after).2) := by
  induction before generalizing table with
  | nil => rfl
  | cons entry rest ih =>
    rw [List.cons_append, insertAll, ih]
    rfl

theorem getElem?_insertAll (table : Table α) (inserts : List (String × α)) (k : Nat) :
    (table.insertAll inserts).1[k]? = inserts[k]?.map fun entry =>
      (table.insertAll (inserts.take k)).2.get? entry.1 := by
  induction inserts generalizing table k with
  | nil => simp [insertAll]
  | cons entry rest ih =>
    cases k with
    | zero => rfl
    | succ k =>
      rw [insertAll, List.getElem?_cons_succ, List.getElem?_cons_succ, List.take_succ_cons, ih]
      rfl

/-! ## The views of a table -/

theorem perm_names (table : Table α) : table.names.Perm (table.entries.map Prod.fst) :=
  List.mergeSort_perm _ _

theorem names_increasing (table : Table α) :
    table.names.Pairwise fun a b => Utf8.encode a < Utf8.encode b := by
  have hs : table.names.Pairwise fun a b => Utf8.le a b = true :=
    List.pairwise_mergeSort Utf8.le_trans Utf8.le_total _
  have hd : table.names.Nodup := table.perm_names.nodup_iff.mpr table.distinct
  refine (hs.and hd).imp fun {a b} hab => ?_
  obtain hl | he := List.le_iff_lt_or_eq.mp (Utf8.le_iff.mp hab.1)
  · exact hl
  · exact absurd (Utf8.encode_injective he) hab.2

theorem map_fst_sorted (table : Table α) : table.sorted.map Prod.fst = table.names := by
  have hp : (table.sorted.map Prod.fst).Perm table.names :=
    ((List.mergeSort_perm _ _).map Prod.fst).trans table.perm_names.symm
  have hs : table.sorted.Pairwise fun a b => Utf8.le a.1 b.1 = true := by
    rw [sorted]
    refine List.pairwise_mergeSort ?_ ?_ table.entries
    · exact fun a b c => Utf8.le_trans a.1 b.1 c.1
    · exact fun a b => Utf8.le_total a.1 b.1
  have hn : table.names.Pairwise fun a b => Utf8.le a b = true :=
    List.pairwise_mergeSort Utf8.le_trans Utf8.le_total _
  refine List.Perm.eq_of_pairwise (fun a b _ _ hab hba => ?_) (List.pairwise_map.mpr hs) hn hp
  exact Utf8.encode_injective (List.le_antisymm (Utf8.le_iff.mp hab) (Utf8.le_iff.mp hba))

theorem get?_of_mem_sorted {entry : String × α} (h : entry ∈ table.sorted) :
    table.get? entry.1 = some entry.2 :=
  (Keyed.lookup_eq_some_iff entry.1 entry.2 table.entries table.distinct).mpr
    ((List.mergeSort_perm _ _).mem_iff.mp h)

/-- All views of a table show the finite map of some insertions. -/
structure Shows (table : Table α) (inserts : List (String × α)) : Prop where
  get? : ∀ name, table.get? name = lastUnder name inserts
  contains : ∀ name, table.contains name = true ↔ ∃ handler, table.get? name = some handler
  size : table.size = (inserts.map Prod.fst).toFinset.card
  isEmpty : table.isEmpty = true ↔ table.size = 0
  increasing : table.names.Pairwise fun a b => Utf8.encode a < Utf8.encode b
  mem_names : ∀ name, name ∈ table.names ↔ name ∈ inserts.map Prod.fst
  /-- The entries, in whatever order, are those of the names, each once. -/
  entries : table.entries.Perm table.sorted
  sorted : (table.sorted.map fun entry => (entry.1, some entry.2)) =
    table.names.map fun name => (name, table.get? name)

theorem IsMap.shows {inserts : List (String × α)} (h : table.IsMap inserts) :
    table.Shows inserts := by
  have hm : ∀ name, name ∈ table.entries.map Prod.fst ↔ name ∈ inserts.map Prod.fst := by
    intro name
    rw [← contains_iff, contains, h, isSome_lastUnder]
  refine ⟨h, fun name => Option.isSome_iff_exists, ?_, ?_, table.names_increasing, ?_,
    (List.mergeSort_perm _ _).symm, ?_⟩
  · have hf : (inserts.map Prod.fst).toFinset = (table.entries.map Prod.fst).toFinset := by
      ext name
      rw [List.mem_toFinset, List.mem_toFinset, hm]
    rw [hf, List.toFinset_card_of_nodup table.distinct, List.length_map, Table.size]
  · rw [Table.isEmpty, Table.size, List.isEmpty_iff, List.length_eq_zero_iff]
  · intro name
    rw [table.perm_names.mem_iff, hm]
  · rw [← map_fst_sorted, List.map_map]
    refine List.map_congr_left fun entry he => ?_
    rw [Function.comp_apply, get?_of_mem_sorted he]

/-! ## A table and its clone -/

/-- Which of two tables is meant. -/
inductive Side where
  | original
  | clone
deriving DecidableEq

/-- A table and its clone. -/
structure Clones (α : Type) where
  original : Table α
  clone : Table α

namespace Clones

def of (table : Table α) : Clones α := ⟨table, table⟩

/-- A handler entered into one of the two. -/
def insert (tables : Clones α) : Side → String → α → Clones α
  | .original, name, handler =>
    { tables with original := (tables.original.insert name handler).2 }
  | .clone, name, handler => { tables with clone := (tables.clone.insert name handler).2 }

/-- Handlers entered now into the one and now into the other. -/
def insertAll (tables : Clones α) : List (Side × String × α) → Clones α
  | [] => tables
  | (side, name, handler) :: rest => (tables.insert side name handler).insertAll rest

end Clones

/-- The insertions meant for one of two tables. -/
def sentTo (side : Side) (inserts : List (Side × String × α)) : List (String × α) :=
  inserts.filterMap fun insertion => if insertion.1 = side then some insertion.2 else none

theorem insertAll_clones (tables : Clones α) (inserts : List (Side × String × α)) :
    (tables.insertAll inserts).original =
        (tables.original.insertAll (sentTo .original inserts)).2 ∧
      (tables.insertAll inserts).clone = (tables.clone.insertAll (sentTo .clone inserts)).2 := by
  induction inserts generalizing tables with
  | nil => exact ⟨rfl, rfl⟩
  | cons insertion rest ih =>
    obtain ⟨side, name, handler⟩ := insertion
    cases side with
    | original => exact ih (tables.insert .original name handler)
    | clone => exact ih (tables.insert .clone name handler)

/-! ## The whole -/

/-- A new table with any insertions is the finite map of these: what is found under a name is what
was entered last under its bytes, and all views of the table show this map. The slots remain those
asked for. Each insertion gives back what was found under its name before it, and changes what is
found under no other name. A clone and its original, changed in any order after the cloning, are as
if the other had never been changed. -/
theorem table_is_map_of_insertions {slots : UInt64} {fresh : Table α}
    (h : new? slots = some fresh) (inserts : List (String × α)) :
    (fresh.insertAll inserts).2.Shows inserts ∧
    (fresh.insertAll inserts).2.capacity = slots ∧
    (∀ k name handler, inserts[k]? = some (name, handler) →
      (fresh.insertAll inserts).1[k]? =
          some ((fresh.insertAll (inserts.take k)).2.get? name) ∧
        ∀ other, other ≠ name → (fresh.insertAll (inserts.take (k + 1))).2.get? other =
          (fresh.insertAll (inserts.take k)).2.get? other) ∧
    ∀ later : List (Side × String × α),
      ((Clones.of (fresh.insertAll inserts).2).insertAll later).original =
          (fresh.insertAll (inserts ++ sentTo .original later)).2 ∧
        ((Clones.of (fresh.insertAll inserts).2).insertAll later).clone =
          (fresh.insertAll (inserts ++ sentTo .clone later)).2 := by
  have hmap := fun inserts => (isMap_of_new? h).insertAll inserts
  simp only [List.nil_append] at hmap
  have hslots : fresh.capacity = slots := by
    unfold new? at h
    split at h
    · cases h
      rfl
    · cases h
  refine ⟨(hmap inserts).shows, (capacity_insertAll fresh inserts).trans hslots, ?_, ?_⟩
  · intro k name handler hk
    refine ⟨by rw [getElem?_insertAll, hk, Option.map_some], fun other ho => ?_⟩
    rw [hmap, hmap, List.take_add_one, hk, Option.toList_some, lastUnder_concat, if_neg ho]
  · intro later
    rw [insertAll_append, insertAll_append]
    exact insertAll_clones _ later

/-! ### A name entered twice, and a third time in a clone -/

theorem last_of_three_under_one_name :
    new? 1 = some (Table.mk ([] : List (String × Nat)) 1 List.nodup_nil) ∧
      ∃ filled : Table Nat, filled =
          ((Table.mk [] 1 List.nodup_nil).insertAll [("ftp", 1), ("http", 2), ("ftp", 3)]).2 ∧
        filled.get? "ftp" = some 3 ∧ filled.size = 2 ∧ filled.capacity = 1 ∧
        ((Clones.of filled).insertAll [(.clone, "ftp", 4)]).original = filled ∧
        ((Clones.of filled).insertAll [(.clone, "ftp", 4)]).clone.get? "ftp" = some 4 := by
  have hn : new? 1 = some (Table.mk ([] : List (String × Nat)) 1 List.nodup_nil) := rfl
  obtain ⟨hshows, hslots, -, hclones⟩ :=
    table_is_map_of_insertions hn [("ftp", 1), ("http", 2), ("ftp", 3)]
  obtain ⟨horiginal, hclone⟩ := hclones [(.clone, "ftp", 4)]
  obtain ⟨hmore, -⟩ :=
    table_is_map_of_insertions hn [("ftp", 1), ("http", 2), ("ftp", 3), ("ftp", 4)]
  refine ⟨hn, _, rfl, ?_, ?_, hslots, horiginal, ?_⟩
  · rw [hshows.get?]
    decide
  · rw [hshows.size]
    decide
  · rw [hclone]
    exact (hmore.get? "ftp").trans (by decide)

end HandlerRegistry.Dispatch.Table
