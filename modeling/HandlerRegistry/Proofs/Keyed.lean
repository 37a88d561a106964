import HandlerRegistry.Keyed

/-! # Entries set and looked up

An entry set twice is the one set last. A new entry goes to the end. What is listed for each key by
a function is found as the value of that function. -/

namespace HandlerRegistry.Keyed
set_option autoImplicit false

variable {κ α : Type} [DecidableEq κ]

theorem set_set (key : κ) (value other : α) (entries : List (κ × α)) :
    set key value (set key other entries) = set key value entries := by
  induction entries with
  | nil => simp [set]
  | cons entry rest ih =>
    by_cases h : entry.1 = key
    · simp [set, h]
    · simp [set, h, ih]

theorem set_of_not_mem {key : κ} {entries : List (κ × α)} (h : key ∉ entries.map Prod.fst)
    (value : α) : set key value entries = entries ++ [(key, value)] := by
  induction entries with
  | nil => rfl
  | cons entry rest ih =>
    rw [List.map_cons, List.mem_cons, not_or] at h
    rw [set, if_neg (fun e => h.1 e.symm), ih h.2, List.cons_append]

variable [BEq κ] [LawfulBEq κ]

theorem lookup_eq_none_iff (wanted : κ) (entries : List (κ × α)) :
    entries.lookup wanted = none ↔ wanted ∉ entries.map Prod.fst := by
  rw [← lookup_isSome_iff, Bool.not_eq_true, Option.isSome_eq_false_iff,
    Option.isNone_iff_eq_none]

theorem lookup_perm {entries others : List (κ × α)} (distinct : (entries.map Prod.fst).Nodup)
    (p : entries.Perm others) (wanted : κ) : others.lookup wanted = entries.lookup wanted := by
  have hd : (others.map Prod.fst).Nodup := (p.map Prod.fst).nodup_iff.mp distinct
  apply Option.ext
  intro value
  rw [lookup_eq_some_iff wanted value others hd, lookup_eq_some_iff wanted value entries distinct,
    p.mem_iff]

theorem lookup_map (value : κ → α) (keys : List κ) (wanted : κ) :
    (keys.map fun key => (key, value key)).lookup wanted =
      if wanted ∈ keys then some (value wanted) else none := by
  induction keys with
  | nil => rfl
  | cons key keys ih =>
    rw [List.map_cons, lookup_cons_eq_ite, ih]
    by_cases h : wanted = key
    · subst h
      rw [if_pos rfl, if_pos List.mem_cons_self]
    · rw [if_neg h]
      simp only [List.mem_cons, h, false_or]

end HandlerRegistry.Keyed
