/-! # Traversals that may fail

A list is read item by item, and the whole fails if one item does. What is read of the items is then
what is found, item by item. A traversal from the left that fails tells of the first item that does
(`FirstFailure`). -/

namespace HandlerRegistry
set_option autoImplicit false

theorem mapM_eq_some_iff {α β : Type} {read : α → Option β} {items : List α} {found : List β} :
    items.mapM read = some found ↔ items.map read = found.map some := by
  induction items generalizing found with
  | nil =>
    rw [List.mapM_nil, List.map_nil, eq_comm (a := []), List.map_eq_nil_iff]
    exact ⟨fun h => (Option.some.inj h).symm, fun h => congrArg some h.symm⟩
  | cons item items ih =>
    rw [List.mapM_cons, List.map_cons, Option.bind_eq_bind, Option.bind_eq_some_iff]
    constructor
    · rintro ⟨first, hf, h⟩
      rw [Option.bind_eq_bind, Option.bind_eq_some_iff] at h
      obtain ⟨others, ho, h⟩ := h
      obtain rfl := Option.some.inj h
      rw [hf, ih.mp ho, List.map_cons]
    · intro h
      cases found with
      | nil => cases h
      | cons first others =>
        obtain ⟨hf, ho⟩ := List.cons.inj h
        exact ⟨first, hf, by rw [ih.mpr ho]; rfl⟩

/-! ## The first failure -/

section
variable {α β ε : Type} {read : α → Except ε β} {item : α} {items : List α} {failure : ε}

/-- Some item is read with a failure, and all items before it are read. -/
def FirstFailure (read : α → Except ε β) (items : List α) (failure : ε) : Prop :=
  ∃ before item after, items = before ++ item :: after ∧
    (∀ other ∈ before, ∃ value, read other = .ok value) ∧ read item = .error failure

theorem not_firstFailure_nil : ¬ FirstFailure read [] failure := by
  rintro ⟨before, item, after, h, -⟩
  cases before <;> cases h

theorem firstFailure_cons : FirstFailure read (item :: items) failure ↔
    read item = .error failure ∨
      (∃ value, read item = .ok value) ∧ FirstFailure read items failure := by
  constructor
  · rintro ⟨before, found, after, h, hb, hf⟩
    cases before with
    | nil =>
      obtain ⟨rfl, -⟩ := List.cons.inj h
      exact .inl hf
    | cons other before =>
      obtain ⟨rfl, rfl⟩ := List.cons.inj h
      obtain ⟨ho, hb⟩ := List.forall_mem_cons.mp hb
      exact .inr ⟨ho, before, found, after, rfl, hb, hf⟩
  · rintro (hf | ⟨ho, before, found, after, rfl, hb, hf⟩)
    · exact ⟨[], item, items, rfl, fun other hm => (nomatch hm), hf⟩
    · exact ⟨item :: before, found, after, rfl, List.forall_mem_cons.mpr ⟨ho, hb⟩, hf⟩

end

end HandlerRegistry
