import HandlerRegistry.Artifact.Template
import HandlerRegistry.Proofs.Traversal
import Mathlib.Data.List.Forall2

/-! # What a rendering has done

One that succeeds has found all handlers to pass their check, has declared each and put the parts
together (`render_eq_ok_iff`). One that fails tells of the first handler that does not pass, or, if
all pass, of the first that cannot be declared (`render_eq_error_iff`). The declarations are all that
a rendering takes from the tree (`render_congr`). -/

namespace HandlerRegistry.Artifact.Template
set_option autoImplicit false

variable {template : Template} {tree : FileTree} {sources : List HandlerSource}

theorem checkAll_eq_ok_iff :
    template.checkAll sources = .ok () ↔ ∀ source ∈ sources, template.check source = .ok () := by
  induction sources with
  | nil => exact iff_of_true rfl fun source hm => (nomatch hm)
  | cons source rest ih =>
    rw [checkAll, List.forall_mem_cons]
    cases hc : template.check source with
    | error failure => exact iff_of_false (fun h => nomatch h) fun h => nomatch h.1
    | ok checked => exact ih.trans (and_iff_right rfl).symm

theorem declareAll_eq_ok_iff {declarations : List String} :
    template.declareAll tree sources = .ok declarations ↔
      List.Forall₂ (fun source text => template.declaration tree source = .ok text) sources
        declarations := by
  induction sources generalizing declarations with
  | nil =>
    rw [declareAll, List.forall₂_nil_left_iff, Except.ok.injEq]
    exact eq_comm
  | cons source rest ih =>
    rw [declareAll, List.forall₂_cons_left_iff]
    cases hd : template.declaration tree source with
    | error failure => exact iff_of_false (fun h => nomatch h) fun ⟨_, _, h, _⟩ => nomatch h
    | ok text =>
      cases hr : template.declareAll tree rest with
      | error failure =>
        refine iff_of_false (fun h => nomatch h) ?_
        rintro ⟨first, others, -, ho, -⟩
        rw [← ih, hr] at ho
        cases ho
      | ok texts =>
        rw [Except.ok.injEq]
        constructor
        · rintro rfl
          exact ⟨text, texts, rfl, ih.mp hr, rfl⟩
        · rintro ⟨first, others, hf, ho, rfl⟩
          rw [← ih, hr] at ho
          rw [Except.ok.inj hf, Except.ok.inj ho]

theorem render_eq_ok_iff {capacity : Nat} {text : String} :
    template.render tree sources capacity = .ok text ↔
      (∀ source ∈ sources, template.check source = .ok ()) ∧
        ∃ declarations, List.Forall₂
          (fun source text => template.declaration tree source = .ok text) sources declarations ∧
          text = template.assemble declarations sources capacity := by
  rw [← checkAll_eq_ok_iff, render]
  cases hc : template.checkAll sources with
  | error failure => exact iff_of_false (fun h => nomatch h) fun h => nomatch h.1
  | ok checked =>
    cases hd : template.declareAll tree sources with
    | error failure =>
      refine iff_of_false (fun h => nomatch h) ?_
      rintro ⟨-, declarations, hf, -⟩
      rw [← declareAll_eq_ok_iff, hd] at hf
      cases hf
    | ok declarations =>
      rw [Except.ok.injEq]
      constructor
      · rintro rfl
        exact ⟨rfl, declarations, declareAll_eq_ok_iff.mp hd, rfl⟩
      · rintro ⟨-, others, hf, rfl⟩
        rw [← declareAll_eq_ok_iff, hd] at hf
        rw [Except.ok.inj hf]

/-! ## Renderings that fail -/

theorem checkAll_eq_error_iff {failure : Failure} :
    template.checkAll sources = .error failure ↔ FirstFailure template.check sources failure := by
  induction sources with
  | nil => exact iff_of_false (fun h => nomatch h) not_firstFailure_nil
  | cons source rest ih =>
    rw [checkAll, firstFailure_cons]
    cases hc : template.check source with
    | error cause => simp
    | ok checked => simp [ih]

theorem declareAll_eq_error_iff {failure : Failure} :
    template.declareAll tree sources = .error failure ↔
      FirstFailure (template.declaration tree) sources failure := by
  induction sources with
  | nil => exact iff_of_false (fun h => nomatch h) not_firstFailure_nil
  | cons source rest ih =>
    rw [declareAll, firstFailure_cons, ← ih]
    cases hd : template.declaration tree source with
    | error cause => simp
    | ok text => cases template.declareAll tree rest <;> simp

/-- All handlers are checked before any is declared, so a handler that is refused hides the failure
of an earlier declaration. -/
theorem render_eq_error_iff {capacity : Nat} {failure : Failure} :
    template.render tree sources capacity = .error failure ↔
      FirstFailure template.check sources failure ∨
        (∀ source ∈ sources, template.check source = .ok ()) ∧
          FirstFailure (template.declaration tree) sources failure := by
  rw [← checkAll_eq_ok_iff, ← checkAll_eq_error_iff, ← declareAll_eq_error_iff, render]
  cases hc : template.checkAll sources with
  | error cause => simp
  | ok checked => cases hd : template.declareAll tree sources <;> simp

/-! ## Equal renderings -/

/-- A rendering depends on the tree only through the declarations. -/
theorem render_congr {other : FileTree}
    (h : ∀ source ∈ sources, template.declaration tree source = template.declaration other source)
    (capacity : Nat) :
    template.render tree sources capacity = template.render other sources capacity := by
  have hd : template.declareAll tree sources = template.declareAll other sources := by
    induction sources with
    | nil => rfl
    | cons source rest ih =>
      obtain ⟨hs, hr⟩ := List.forall_mem_cons.mp h
      rw [declareAll, declareAll, hs, ih hr]
  rw [render, render, hd]

/-- Parts that are made of the identifiers alone are equal if these are. -/
theorem map_eq_of_ids {β : Type} {others : List HandlerSource}
    (h : sources.map (·.id) = others.map (·.id)) (part : Identifier → β) :
    (sources.map fun source => part source.id) = others.map fun source => part source.id := by
  have hm := congrArg (List.map part) h
  rw [List.map_map, List.map_map] at hm
  exact hm

end HandlerRegistry.Artifact.Template
