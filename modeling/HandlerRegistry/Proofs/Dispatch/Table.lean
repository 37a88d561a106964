import HandlerRegistry.Dispatch.Table
import HandlerRegistry.Proofs.Keyed
import HandlerRegistry.Proofs.Text.Utf8
import HandlerRegistry.Text.Numeral

/-! # Tables filled with new names

Handlers entered under names that are all new displace nothing, and the table then lists them in the
order of their insertion. Names that are entered in increasing order need no sorting. -/

namespace HandlerRegistry.Dispatch.Table
set_option autoImplicit false

variable {α : Type} {table : Table α}

/-- One handler under a new name. -/
theorem insert_of_not_mem {name : String} (h : name ∉ table.entries.map Prod.fst) (handler : α) :
    (table.insert name handler).1 = none ∧
      (table.insert name handler).2.entries = table.entries ++ [(name, handler)] :=
  ⟨(Keyed.lookup_eq_none_iff name table.entries).mpr h, Keyed.set_of_not_mem h handler⟩

/-- Several handlers under names that are new and distinct. -/
theorem insertAll_of_nodup {new : List (String × α)}
    (h : ((table.entries ++ new).map Prod.fst).Nodup) :
    (∀ displaced ∈ (table.insertAll new).1, displaced = none) ∧
      (table.insertAll new).2.entries = table.entries ++ new := by
  induction new generalizing table with
  | nil => exact ⟨fun displaced hm => (nomatch hm), (List.append_nil _).symm⟩
  | cons entry rest ih =>
    obtain ⟨name, handler⟩ := entry
    have hn : name ∉ table.entries.map Prod.fst := by
      rw [List.map_append, List.nodup_append] at h
      intro hm
      exact h.2.2 name hm name List.mem_cons_self rfl
    obtain ⟨hnone, he⟩ := insert_of_not_mem hn handler
    have hr : (((table.insert name handler).2.entries ++ rest).map Prod.fst).Nodup := by
      rw [he, List.append_assoc]
      exact h
    obtain ⟨hall, hentries⟩ := ih hr
    refine ⟨List.forall_mem_cons.mpr ⟨hnone, hall⟩, ?_⟩
    rw [insertAll, hentries, he, List.append_assoc]
    rfl

theorem capacity_insertAll (table : Table α) (new : List (String × α)) :
    (table.insertAll new).2.capacity = table.capacity := by
  induction new generalizing table with
  | nil => rfl
  | cons entry rest ih => exact ih _

/-- An empty table with a number of slots, if they can be reserved. -/
def ofSlots? (slots : Nat) : Option (Table α) := (Text.word64? slots).bind new?

theorem ofSlots?_eq_some {slots : Nat} (h : ofSlots? slots = some table) :
    table.entries = [] ∧ table.capacity.toNat = slots := by
  rw [ofSlots?, Option.bind_eq_some_iff] at h
  obtain ⟨word, hw, hn⟩ := h
  rw [Text.word64?] at hw
  unfold new? at hn
  split at hw
  · rename_i hs
    cases hw
    split at hn
    · cases hn
      exact ⟨rfl, UInt64.toNat_ofNat_of_lt hs⟩
    · cases hn
  · cases hw

/-- Names that are listed in increasing order are given in that order. -/
theorem names_of_pairwise
    (h : (table.entries.map Prod.fst).Pairwise fun a b => Utf8.encode a < Utf8.encode b) :
    table.names = table.entries.map Prod.fst := by
  refine List.mergeSort_of_pairwise (h.imp ?_)
  intro a b hab
  rw [Utf8.le, Utf8.compare_eq_lt_iff.mpr hab]
  rfl

end HandlerRegistry.Dispatch.Table
