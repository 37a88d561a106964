/-!
# Cutting a list at a mark

Names are cut at their last dot, options at their first equals sign, addresses at the first `://`,
symbols at a fixed beginning and end. Each cut is a function on lists, so that it serves bytes and
characters alike.

* `splitFirst`, `splitLast`: the parts around the first or last occurrence of an element.
* `stripStart`, `stripEnd`: what a list holds after, or before, a fixed part.
* `splitAtFirst`: the parts around the first occurrence of a whole list.
-/

namespace HandlerRegistry.Text
set_option autoImplicit false

variable {α : Type} [DecidableEq α]

/-- The parts before and after the first occurrence of an element. -/
def splitFirst (mark : α) : List α → Option (List α × List α)
  | [] => none
  | x :: rest =>
    if x = mark then some ([], rest)
    else (splitFirst mark rest).map fun parts => (x :: parts.1, parts.2)

/-- The parts before and after the last occurrence of an element. -/
def splitLast (mark : α) : List α → Option (List α × List α)
  | [] => none
  | x :: rest =>
    match splitLast mark rest with
    | some (before, after) => some (x :: before, after)
    | none => if x = mark then some ([], rest) else none

/-- What follows a fixed beginning. -/
def stripStart : List α → List α → Option (List α)
  | [], rest => some rest
  | _ :: _, [] => none
  | x :: start, y :: rest => if x = y then stripStart start rest else none

/-- What precedes a fixed end. -/
def stripEnd (ending whole : List α) : Option (List α) :=
  (stripStart ending.reverse whole.reverse).map List.reverse

/-- The parts before and after the first occurrence of a whole list. -/
def splitAtFirst (mark : List α) : List α → Option (List α × List α)
  | [] => (stripStart mark []).map ([], ·)
  | x :: rest =>
    match stripStart mark (x :: rest) with
    | some after => some ([], after)
    | none => (splitAtFirst mark rest).map fun parts => (x :: parts.1, parts.2)

/-! ## What the cuts say -/

theorem stripStart_eq_some {start whole rest : List α} :
    stripStart start whole = some rest ↔ whole = start ++ rest := by
  induction start generalizing whole with
  | nil => simp [stripStart]
  | cons x start ih =>
    cases whole with
    | nil => simp [stripStart]
    | cons y whole =>
      by_cases h : x = y
      · simp [stripStart, h, ih]
      · have h' : ¬ y = x := fun e => h e.symm
        simp [stripStart, h, h']

theorem stripEnd_eq_some {ending whole rest : List α} :
    stripEnd ending whole = some rest ↔ whole = rest ++ ending := by
  simp only [stripEnd, Option.map_eq_some_iff, stripStart_eq_some]
  constructor
  · rintro ⟨r, h, rfl⟩
    have h2 := congrArg List.reverse h
    simpa using h2
  · rintro rfl
    exact ⟨rest.reverse, by simp, by simp⟩

/-- What stands between a fixed beginning and a fixed end. -/
theorem stripStart_bind_stripEnd_eq_some {start ending whole inner : List α} :
    (stripStart start whole).bind (stripEnd ending) = some inner ↔
      whole = start ++ (inner ++ ending) := by
  rw [Option.bind_eq_some_iff]
  simp only [stripStart_eq_some, stripEnd_eq_some]
  constructor
  · rintro ⟨rest, h, rfl⟩
    exact h
  · intro h
    exact ⟨_, h, rfl⟩

theorem splitFirst_eq_some {mark : α} {l before after : List α} :
    splitFirst mark l = some (before, after) ↔ l = before ++ mark :: after ∧ mark ∉ before := by
  induction l generalizing before after with
  | nil => simp [splitFirst]
  | cons x rest ih =>
    by_cases e : x = mark
    · simp only [splitFirst, e, if_pos, Option.some.injEq, Prod.mk.injEq]
      constructor
      · rintro ⟨rfl, rfl⟩
        simp
      · rintro ⟨q, hn⟩
        cases before with
        | nil => simpa using q
        | cons y before =>
          simp only [List.cons_append, List.cons.injEq] at q
          exact absurd (q.1 ▸ by simp) hn
    · have e' : ¬ mark = x := fun q => e q.symm
      simp only [splitFirst, e, if_false, Option.map_eq_some_iff, Prod.mk.injEq]
      constructor
      · rintro ⟨⟨b, a⟩, h, rfl, rfl⟩
        have hr := ih.mp h
        exact ⟨by simp [hr.1], by simp [e', hr.2]⟩
      · rintro ⟨q, hn⟩
        cases before with
        | nil =>
          simp only [List.nil_append, List.cons.injEq] at q
          exact absurd q.1 e
        | cons y before =>
          simp only [List.cons_append, List.cons.injEq] at q
          have hb : mark ∉ before := fun m => hn (List.mem_cons_of_mem y m)
          exact ⟨(before, after), ih.mpr ⟨q.2, hb⟩, by rw [q.1], rfl⟩

theorem splitLast_eq_none {mark : α} {l : List α} : splitLast mark l = none ↔ mark ∉ l := by
  induction l with
  | nil => simp [splitLast]
  | cons x rest ih =>
    cases h : splitLast mark rest with
    | some parts =>
      have hm : mark ∈ rest := by
        apply Decidable.byContradiction
        intro hn
        rw [ih.mpr hn] at h
        cases h
      simp [splitLast, h, hm]
    | none =>
      have hn := ih.mp h
      by_cases e : x = mark
      · simp [splitLast, h, e]
      · have e' : ¬ mark = x := fun q => e q.symm
        simp [splitLast, h, e, e', hn]

theorem splitLast_eq_some {mark : α} {l before after : List α} :
    splitLast mark l = some (before, after) ↔ l = before ++ mark :: after ∧ mark ∉ after := by
  induction l generalizing before after with
  | nil => simp [splitLast]
  | cons x rest ih =>
    cases h : splitLast mark rest with
    | some parts =>
      obtain ⟨b, a⟩ := parts
      have hr := ih.mp h
      simp only [splitLast, h, Option.some.injEq, Prod.mk.injEq]
      constructor
      · rintro ⟨rfl, rfl⟩
        exact ⟨by simp [hr.1], hr.2⟩
      · rintro ⟨e, hn⟩
        cases before with
        | nil =>
          simp only [List.nil_append, List.cons.injEq] at e
          exact absurd (e.2 ▸ hr.1 ▸ by simp) hn
        | cons y before =>
          simp only [List.cons_append, List.cons.injEq] at e
          have := ih.mpr ⟨e.2, hn⟩
          rw [h] at this
          simp only [Option.some.injEq, Prod.mk.injEq] at this
          simp [e.1, this.1, this.2]
    | none =>
      have hn := splitLast_eq_none.mp h
      simp only [splitLast, h]
      by_cases e : x = mark
      · simp only [e, if_pos, Option.some.injEq, Prod.mk.injEq]
        constructor
        · rintro ⟨rfl, rfl⟩
          exact ⟨rfl, hn⟩
        · rintro ⟨q, hn'⟩
          cases before with
          | nil =>
            simp only [List.nil_append, List.cons.injEq] at q
            exact ⟨rfl, q.2⟩
          | cons y before =>
            simp only [List.cons_append, List.cons.injEq] at q
            exact absurd (q.2 ▸ by simp) hn
      · simp only [e, if_false]
        constructor
        · intro q; cases q
        · rintro ⟨q, _⟩
          cases before with
          | nil =>
            simp only [List.nil_append, List.cons.injEq] at q
            exact absurd q.1 e
          | cons y before =>
            simp only [List.cons_append, List.cons.injEq] at q
            exact absurd (q.2 ▸ by simp) hn

/-- The parts around the leftmost occurrence of a list. -/
theorem splitAtFirst_eq_some {mark l before after : List α} :
    splitAtFirst mark l = some (before, after) ↔
      l = before ++ (mark ++ after) ∧
        ∀ other rest, l = other ++ (mark ++ rest) → before.length ≤ other.length := by
  induction l generalizing before after with
  | nil =>
    cases mark with
    | nil =>
      simp only [splitAtFirst, stripStart, Option.map_some, Option.some.injEq, Prod.mk.injEq]
      constructor
      · rintro ⟨rfl, rfl⟩
        simp
      · rintro ⟨he, -⟩
        simpa [eq_comm] using he
    | cons y mark => simp [splitAtFirst, stripStart]
  | cons x l ih =>
    rw [splitAtFirst]
    cases hs : stripStart mark (x :: l) with
    | some found =>
      have hf := stripStart_eq_some.mp hs
      simp only [Option.some.injEq, Prod.mk.injEq]
      constructor
      · rintro ⟨rfl, rfl⟩
        exact ⟨hf, fun other rest _ => Nat.zero_le _⟩
      · rintro ⟨he, hl⟩
        -- Nothing can stand before an occurrence at the very beginning.
        obtain rfl : before = [] := List.eq_nil_of_length_eq_zero (Nat.le_zero.mp (hl [] found hf))
        exact ⟨rfl, List.append_cancel_left (hf.symm.trans he)⟩
    | none =>
      have hn : ∀ rest, x :: l ≠ mark ++ rest := by
        intro rest he
        rw [stripStart_eq_some.mpr he] at hs
        cases hs
      simp only [Option.map_eq_some_iff, Prod.mk.injEq]
      constructor
      · rintro ⟨⟨b, a⟩, h, rfl, rfl⟩
        obtain ⟨he, hl⟩ := ih.mp h
        refine ⟨by rw [he, List.cons_append], fun other rest ho => ?_⟩
        cases other with
        | nil => exact absurd ho (hn rest)
        | cons y other => exact Nat.succ_le_succ (hl other rest (List.cons.inj ho).2)
      · rintro ⟨he, hl⟩
        cases before with
        | nil => exact absurd he (hn after)
        | cons y before =>
          obtain ⟨rfl, hr⟩ := List.cons.inj he
          refine ⟨(before, after), ih.mpr ⟨hr, fun other rest ho => ?_⟩, rfl, rfl⟩
          exact Nat.le_of_succ_le_succ (hl (x :: other) rest (by rw [ho, List.cons_append]))

theorem splitAtFirst_eq_none {mark l : List α} :
    splitAtFirst mark l = none ↔ ∀ before after, l ≠ before ++ (mark ++ after) := by
  induction l with
  | nil => cases mark <;> simp [splitAtFirst, stripStart]
  | cons x l ih =>
    rw [splitAtFirst]
    cases hs : stripStart mark (x :: l) with
    | some found =>
      have hf := stripStart_eq_some.mp hs
      exact iff_of_false (fun h => nomatch h) fun h => h [] found hf
    | none =>
      simp only [Option.map_eq_none_iff, ih]
      constructor
      · intro h before after he
        cases before with
        | nil => exact absurd (hs.symm.trans (stripStart_eq_some.mpr he)) (by simp)
        | cons y before => exact h before after (List.cons.inj he).2
      · intro h before after he
        exact h (x :: before) after (by rw [he, List.cons_append])

end HandlerRegistry.Text
