import HandlerRegistry.Toml.Scan

/-! # Scans that see no further than the end of the line

A scan may look at what follows the characters that it takes. A local scan does not tell the end of
the characters from the end of a line there (`Local`), so that what it reads at the end of a text it
reads just as well on a line before others. A repeated scan is described by its runs, which know of no
bound on their number (`Runs.repeatScan`); it is local if a single scan is, as long as another one
comes after it (`LocalItem.repeatScan`). -/

namespace HandlerRegistry.Toml
set_option autoImplicit false

/-! ## Rests that look alike -/

/-- A rest that is over, or begins with the end of a line. -/
inductive AtEnd : List Char → Prop where
  | nil : AtEnd []
  | line (rest : List Char) : AtEnd ('\n' :: rest)

/-- Two rests with the same characters up to the end of each. -/
inductive Alike : List Char → List Char → Prop where
  | cons {rest other : List Char} (c : Char) (h : Alike rest other) : Alike (c :: rest) (c :: other)
  | ended {rest other : List Char} (h : AtEnd rest) (ho : AtEnd other) : Alike rest other

/-- A character that passes a test is none that does not. -/
theorem ne_of_passes {p : Char → Bool} {c d : Char} (h : p c = true) (hd : p d = false) :
    c ≠ d := by
  rintro rfl
  rw [h] at hd
  cases hd

variable {rest other : List Char}

theorem Alike.symm (h : Alike rest other) : Alike other rest := by
  induction h with
  | cons c _ ih => exact .cons c ih
  | ended h ho => exact .ended ho h

theorem Alike.append (h : Alike rest other) (taken : List Char) :
    Alike (taken ++ rest) (taken ++ other) := by
  induction taken with
  | nil => exact h
  | cons c taken ih => exact .cons c ih

/-- The first character of a rest is that of the other one, unless it ends a line. -/
theorem Alike.of_cons {c : Char} (h : Alike rest (c :: other)) (hc : c ≠ '\n') :
    ∃ others, rest = c :: others ∧ Alike others other := by
  generalize he : c :: other = right at h
  cases h with
  | cons d h =>
    obtain ⟨rfl, rfl⟩ := List.cons.inj he
    exact ⟨_, rfl, h⟩
  | ended _ ho =>
    cases ho with
    | nil => cases he
    | line _ => exact absurd (List.cons.inj he).1 hc

theorem Alike.of_cons_cons {c d : Char} (h : Alike rest (c :: d :: other)) (hc : c ≠ '\n')
    (hd : d ≠ '\n') : ∃ others, rest = c :: d :: others := by
  obtain ⟨after, rfl, ha⟩ := h.of_cons hc
  obtain ⟨others, rfl, -⟩ := ha.of_cons hd
  exact ⟨others, rfl⟩

/-- A character that does not begin a rest does not begin the other one either. -/
theorem Alike.head?_ne {c : Char} (h : Alike rest other) (hc : c ≠ '\n')
    (hr : rest.head? ≠ some c) : other.head? ≠ some c := by
  intro ho
  obtain ⟨others, rfl⟩ := List.head?_eq_some_iff.mp ho
  obtain ⟨_, rfl, -⟩ := h.of_cons hc
  exact hr rfl

theorem Alike.head_of_head {p : Char → Bool} (h : Alike rest other) (hp : p '\n' = false)
    (hr : ∀ c, rest.head? = some c → p c = false) : ∀ c, other.head? = some c → p c = false := by
  intro c hc
  by_cases hn : c = '\n'
  · rw [hn, hp]
  · obtain ⟨others, rfl⟩ := List.head?_eq_some_iff.mp hc
    obtain ⟨_, rfl, -⟩ := h.of_cons hn
    exact hr c rfl

/-! ### Characters skipped -/

section
variable {p : Char → Bool}

theorem Alike.dropWhile (h : Alike rest other) (hp : p '\n' = false) :
    Alike (rest.dropWhile p) (other.dropWhile p) := by
  have hend : ∀ {rest : List Char}, AtEnd rest → rest.dropWhile p = rest := by
    rintro rest (_ | after)
    · rfl
    · exact List.dropWhile_cons_of_neg (Bool.eq_false_iff.mp hp)
  induction h with
  | @cons rest other c h ih =>
    by_cases hc : p c = true
    · rw [List.dropWhile_cons_of_pos hc, List.dropWhile_cons_of_pos hc]
      exact ih
    · rw [List.dropWhile_cons_of_neg hc, List.dropWhile_cons_of_neg hc]
      exact .cons c h
  | ended h ho =>
    rw [hend h, hend ho]
    exact .ended h ho

theorem span_append {taken : List Char} (ht : ∀ c ∈ taken, p c = true)
    (hr : ∀ c, rest.head? = some c → p c = false) :
    (taken ++ rest).takeWhile p = taken ∧ (taken ++ rest).dropWhile p = rest := by
  have hd : rest.takeWhile p = [] ∧ rest.dropWhile p = rest := by
    cases rest with
    | nil => exact ⟨rfl, rfl⟩
    | cons c rest =>
      have hc : ¬ p c = true := Bool.eq_false_iff.mp (hr c rfl)
      exact ⟨List.takeWhile_cons_of_neg hc, List.dropWhile_cons_of_neg hc⟩
  rw [List.takeWhile_append_of_pos ht, List.dropWhile_append_of_pos ht, hd.1, hd.2,
    List.append_nil]
  exact ⟨rfl, rfl⟩

theorem exists_span (p : Char → Bool) (input : List Char) : ∃ taken rest,
    input = taken ++ rest ∧ (∀ c ∈ taken, p c = true) ∧
      ∀ c, rest.head? = some c → p c = false := by
  refine ⟨input.takeWhile p, input.dropWhile p, (List.takeWhile_append_dropWhile ..).symm,
    fun c hc => List.all_eq_true.mp List.all_takeWhile c hc, fun c hc => ?_⟩
  have hn := List.head?_dropWhile_not p input
  rw [hc] at hn
  exact hn

end

theorem Alike.skipBlank (h : Alike rest other) :
    Alike (Toml.skipBlank rest) (Toml.skipBlank other) := h.dropWhile (by decide)

theorem exists_blanks (input : List Char) : ∃ blanks, input = blanks ++ skipBlank input ∧
    ∀ ⦃other⦄, Alike (skipBlank input) other → skipBlank (blanks ++ other) = other := by
  obtain ⟨blanks, rest, rfl, hb, hr⟩ := exists_span isBlank input
  have hs : Toml.skipBlank (blanks ++ rest) = rest := (span_append hb hr).2
  refine ⟨blanks, by rw [hs], fun other ha => ?_⟩
  rw [hs] at ha
  exact (span_append hb (ha.head_of_head (by decide) hr)).2

/-! ## Local scans -/

section
variable {α β : Type}

/-- A scan that reads the same whenever what follows looks alike. -/
def Local (scan : Scan α) : Prop :=
  ∀ ⦃input : List Char⦄ ⦃read : α⦄ ⦃left : List Char⦄, scan input = some (read, left) →
    ∃ taken, input = taken ++ left ∧
      ∀ ⦃other⦄, Alike left other → scan (taken ++ other) = some (read, other)

/-- A scan of an item that takes something and reads the same whenever what follows looks alike,
provided that another item follows if there has to be one. -/
def LocalItem (scan : Scan (List α × Bool)) : Prop :=
  ∀ ⦃input : List Char⦄ ⦃items : List α⦄ ⦃done : Bool⦄ ⦃left : List Char⦄,
    scan input = some ((items, done), left) → (done = false → (scan left).isSome) →
      ∃ taken, input = taken ++ left ∧ (done = false → taken ≠ []) ∧
        ∀ ⦃other⦄, Alike left other → scan (taken ++ other) = some ((items, done), other)

theorem Local.map {scan : Scan α} (h : Local scan) (f : α → β) :
    Local fun input => (scan input).map fun read => (f read.1, read.2) := by
  intro input read left hs
  obtain ⟨⟨found, rest⟩, hf, he⟩ := Option.map_eq_some_iff.mp hs
  obtain ⟨rfl, rfl⟩ := Prod.mk.inj he
  obtain ⟨taken, rfl, hl⟩ := h hf
  exact ⟨taken, rfl, fun other ha => congrArg (Option.map _) (hl ha)⟩

/-! ## Runs of a repeated scan -/

/-- The items of one scan after another, each of which but the last takes something. -/
inductive Runs (scan : Scan (List α × Bool)) : List Char → List α → List Char → Prop where
  | last {input left : List Char} {items : List α} (h : scan input = some ((items, true), left)) :
      Runs scan input items left
  | more {input next left : List Char} {items others : List α}
      (h : scan input = some ((items, false), next)) (shorter : next.length < input.length)
      (rest : Runs scan next others left) : Runs scan input (items ++ others) left

variable {scan : Scan (List α × Bool)} {input left : List Char} {items : List α}

theorem Runs.repeatUpTo (h : Runs scan input items left) {count : Nat}
    (hc : input.length < count) : repeatUpTo scan count input = some (items, left) := by
  induction h generalizing count with
  | last h =>
    obtain ⟨count, rfl⟩ : ∃ n, count = n + 1 := ⟨count - 1, by omega⟩
    rw [Toml.repeatUpTo, h]
  | more h shorter _ ih =>
    obtain ⟨count, rfl⟩ : ∃ n, count = n + 1 := ⟨count - 1, by omega⟩
    rw [Toml.repeatUpTo, h]
    simp only
    rw [ih (by omega)]

theorem Runs.repeatScan (h : Runs scan input items left) :
    repeatScan scan input = some (items, left) := h.repeatUpTo (Nat.lt_succ_self _)

theorem Runs.isSome (h : Runs scan input items left) : (scan input).isSome := by
  cases h with
  | last h => rw [h, Option.isSome_some]
  | more h => rw [h, Option.isSome_some]

theorem LocalItem.runs_of_repeatUpTo (hl : LocalItem scan) {count : Nat}
    (h : Toml.repeatUpTo scan count input = some (items, left)) : Runs scan input items left := by
  induction count generalizing input items with
  | zero => cases h
  | succ count ih =>
    rw [Toml.repeatUpTo] at h
    split at h
    · cases h
    · rename_i read after hs
      cases h
      exact .last hs
    · rename_i read after hs
      split at h
      · cases h
      · rename_i others rest hr
        cases h
        have hn := ih hr
        obtain ⟨taken, he, ht, -⟩ := hl hs fun _ => hn.isSome
        have hp := List.length_pos_iff.mpr (ht rfl)
        refine .more hs ?_ hn
        rw [he, List.length_append]
        omega

theorem Runs.exists_taken (h : Runs scan input items left) (hl : LocalItem scan) :
    ∃ taken, input = taken ++ left ∧
      ∀ ⦃other⦄, Alike left other → Runs scan (taken ++ other) items other := by
  induction h with
  | last h =>
    obtain ⟨taken, rfl, -, hr⟩ := hl h fun he => nomatch he
    exact ⟨taken, rfl, fun other ha => .last (hr ha)⟩
  | more h _ rest ih =>
    obtain ⟨taken, rfl, ht, hr⟩ := hl h fun _ => rest.isSome
    obtain ⟨after, rfl, ho⟩ := ih
    have hp := List.length_pos_iff.mpr (ht rfl)
    refine ⟨taken ++ after, (List.append_assoc ..).symm, fun other ha => ?_⟩
    rw [List.append_assoc]
    refine .more (hr (ha.append after)) ?_ (ho ha)
    simp only [List.length_append]
    omega

/-- A repeated scan is local if it is so item by item. -/
theorem LocalItem.repeatScan (hl : LocalItem scan) : Local (repeatScan scan) := by
  intro input items left h
  obtain ⟨taken, he, hr⟩ := (hl.runs_of_repeatUpTo h).exists_taken hl
  exact ⟨taken, he, fun other ha => (hr ha).repeatScan⟩

end
end HandlerRegistry.Toml
