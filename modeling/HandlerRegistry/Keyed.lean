/-!
# Lists of entries under keys

A finite map whose order can be seen is a list of entries, each a key with its value, in which no
key occurs twice.

* `Keyed.set`: an entry set in its old position, or else last.
* `map_fst_set`, `nodup_set`, `nodup_filter`: which keys there are afterwards, each still once.
* `lookup_set`, `lookup_filter`: what is found under each key afterwards.
* `lookup_eq_some_iff`: what is found is what is listed.
-/

namespace HandlerRegistry.Keyed
set_option autoImplicit false

variable {κ α : Type} [DecidableEq κ]

/-- The entries with one set: in its old position, or else last. -/
def set (key : κ) (value : α) : List (κ × α) → List (κ × α)
  | [] => [(key, value)]
  | entry :: rest => if entry.1 = key then (key, value) :: rest else entry :: set key value rest

/-! ## The keys -/

theorem map_fst_set (key : κ) (value : α) (entries : List (κ × α)) :
    (set key value entries).map Prod.fst =
      if key ∈ entries.map Prod.fst then entries.map Prod.fst
      else entries.map Prod.fst ++ [key] := by
  induction entries with
  | nil => simp [set]
  | cons entry rest ih =>
    by_cases h : entry.1 = key
    · simp [set, h]
    · have h' : ¬ key = entry.1 := fun e => h e.symm
      simp only [set, if_neg h, List.map_cons, ih, List.mem_cons, h', false_or]
      split <;> rfl

theorem nodup_set (key : κ) (value : α) (entries : List (κ × α))
    (h : (entries.map Prod.fst).Nodup) : ((set key value entries).map Prod.fst).Nodup := by
  rw [map_fst_set]
  split
  · exact h
  · rename_i hn
    rw [List.nodup_append]
    refine ⟨h, by simp, ?_⟩
    intro a ha b hb e
    rw [List.mem_singleton] at hb
    exact hn (hb ▸ e ▸ ha)

omit [DecidableEq κ] in
theorem nodup_filter (keep : κ × α → Bool) (entries : List (κ × α))
    (h : (entries.map Prod.fst).Nodup) : ((entries.filter keep).map Prod.fst).Nodup :=
  h.sublist (List.filter_sublist.map Prod.fst)

/-! ## The values -/

variable [BEq κ] [LawfulBEq κ]

theorem lookup_cons_eq_ite (wanted key : κ) (value : α) (rest : List (κ × α)) :
    ((key, value) :: rest).lookup wanted =
      if wanted = key then some value else rest.lookup wanted := by
  rw [List.lookup_cons]
  by_cases h : wanted = key
  · rw [beq_iff_eq.mpr h, if_pos h]
  · rw [beq_eq_false_iff_ne.mpr h, if_neg h]

theorem lookup_set (key wanted : κ) (value : α) (entries : List (κ × α)) :
    (set key value entries).lookup wanted =
      if wanted = key then some value else entries.lookup wanted := by
  induction entries with
  | nil => exact lookup_cons_eq_ite wanted key value []
  | cons entry rest ih =>
    obtain ⟨name, old⟩ := entry
    by_cases hk : name = key
    · subst hk
      simp only [set, if_true, lookup_cons_eq_ite]
      split <;> rfl
    · simp only [set, if_neg hk, lookup_cons_eq_ite, ih]
      by_cases h : wanted = name
      · subst h
        simp [hk]
      · simp [h]

theorem lookup_filter (test : κ → Bool) (wanted : κ) (entries : List (κ × α)) :
    (entries.filter fun entry => test entry.1).lookup wanted =
      if test wanted then entries.lookup wanted else none := by
  induction entries with
  | nil => simp
  | cons entry rest ih =>
    obtain ⟨key, value⟩ := entry
    rw [List.filter_cons, lookup_cons_eq_ite]
    by_cases h : wanted = key
    · subst h
      by_cases ht : test wanted
      · simp [ht]
      · simp [ht, ih]
    · by_cases ht : test key
      · simp [ht, lookup_cons_eq_ite, h, ih]
      · simp [ht, h, ih]

theorem lookup_isSome_iff (wanted : κ) (entries : List (κ × α)) :
    (entries.lookup wanted).isSome = true ↔ wanted ∈ entries.map Prod.fst := by
  induction entries with
  | nil => simp
  | cons entry rest ih =>
    obtain ⟨key, value⟩ := entry
    rw [lookup_cons_eq_ite]
    by_cases h : wanted = key
    · simp [h]
    · rw [if_neg h, ih]
      simp [h]

theorem lookup_eq_some_iff (wanted : κ) (value : α) (entries : List (κ × α))
    (distinct : (entries.map Prod.fst).Nodup) :
    entries.lookup wanted = some value ↔ (wanted, value) ∈ entries := by
  induction entries with
  | nil => simp
  | cons entry rest ih =>
    obtain ⟨key, found⟩ := entry
    obtain ⟨absent, unique⟩ := List.nodup_cons.mp distinct
    rw [lookup_cons_eq_ite]
    by_cases h : wanted = key
    · subst h
      have hn : (wanted, value) ∉ rest := fun m => absent (List.mem_map.mpr ⟨_, m, rfl⟩)
      simp [hn, eq_comm]
    · rw [if_neg h, ih unique]
      simp [h]

end HandlerRegistry.Keyed
