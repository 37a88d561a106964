import HandlerRegistry.Dispatch.Registry
import Mathlib.Data.List.Forall2

/-! # A holder keeps the first table it gets

Until a use offers a table the holder is empty and says so. The first offer is taken, and from then
on every use gives that table or is refused; no builder runs again. Both halves are invariants of
single uses (`step_empty`, `step_held`), carried through runs of any length. -/

namespace HandlerRegistry.Dispatch.Holder
set_option autoImplicit false

variable {α : Type} {table : Table α}

/-! ## Uses of a holder -/

/-- One use of a holder. -/
inductive Use (α : Type) where
  | install (table : Table α)
  | getOrBuild (build : Unit → Option (Table α))
  | get

/-- The table that a use puts into an empty holder, if it has one. -/
def Use.offer : Use α → Option (Table α)
  | .install table => some table
  | .getOrBuild build => build ()
  | .get => none

/-- What a use gives back. Of a request with a builder it is told whether the builder ran. -/
inductive Answer (α : Type) where
  | installed (result : Except InstallError (Table α))
  | built (ran : Bool) (result : Except InstallError (Table α))
  | held (table? : Option (Table α))

/-- One use: its answer, and the holder after it. -/
def step (holder : Holder α) : Use α → Answer α × Holder α
  | .install table => (.installed (holder.install table).1, (holder.install table).2)
  | .getOrBuild build =>
    (.built (holder.getOrBuild build).ran (holder.getOrBuild build).result,
      (holder.getOrBuild build).holder)
  | .get => (.held holder.table?, holder)

/-- Several uses: their answers, and the holder at the end. -/
def run (holder : Holder α) : List (Use α) → List (Answer α) × Holder α
  | [] => ([], holder)
  | use :: rest => ((holder.step use).1 :: ((holder.step use).2.run rest).1,
      ((holder.step use).2.run rest).2)

/-! ## What the answers are -/

/-- The answer of a holder that is empty and stays so. -/
inductive AnsweredEmpty : Use α → Answer α → Prop where
  | getOrBuild (build : Unit → Option (Table α)) :
    AnsweredEmpty (.getOrBuild build) (.built true (.error .allocation))
  | get : AnsweredEmpty .get (.held none)

/-- The answer to the use that sets the holder. -/
inductive AnsweredSetting (table : Table α) : Use α → Answer α → Prop where
  | install : AnsweredSetting table (.install table) (.installed (.ok table))
  | getOrBuild (build : Unit → Option (Table α)) (offer : build () = some table) :
    AnsweredSetting table (.getOrBuild build) (.built true (.ok table))

/-- The answer of a holder that has its table. -/
inductive AnsweredFrom (table : Table α) : Use α → Answer α → Prop where
  | install (other : Table α) :
    AnsweredFrom table (.install other) (.installed (.error .alreadyInstalled))
  | getOrBuild (build : Unit → Option (Table α)) :
    AnsweredFrom table (.getOrBuild build) (.built false (.ok table))
  | get : AnsweredFrom table .get (.held (some table))

/-! ## Single uses -/

theorem step_empty {use : Use α} (h : use.offer = none) :
    AnsweredEmpty use (empty.step use).1 ∧ (empty.step use).2 = empty := by
  cases use with
  | install table => cases h
  | getOrBuild build =>
    have hb : build () = none := h
    have hg : empty.getOrBuild build = ⟨true, .error .allocation, empty⟩ := by
      simp only [Holder.getOrBuild, empty, hb]
    rw [step, hg]
    exact ⟨.getOrBuild build, rfl⟩
  | get => exact ⟨.get, rfl⟩

theorem step_setting {use : Use α} (h : use.offer = some table) :
    AnsweredSetting table use (empty.step use).1 ∧ (empty.step use).2 = ⟨some table⟩ := by
  cases use with
  | install other =>
    obtain rfl : other = table := Option.some.inj h
    exact ⟨.install, rfl⟩
  | getOrBuild build =>
    have hb : build () = some table := h
    have hg : empty.getOrBuild build = ⟨true, .ok table, ⟨some table⟩⟩ := by
      simp only [Holder.getOrBuild, empty, hb]
    rw [step, hg]
    exact ⟨.getOrBuild build hb, rfl⟩
  | get => cases h

theorem step_held (table : Table α) (use : Use α) :
    AnsweredFrom table use (step ⟨some table⟩ use).1 ∧ (step ⟨some table⟩ use).2 = ⟨some table⟩ := by
  cases use with
  | install other => exact ⟨.install other, rfl⟩
  | getOrBuild build => exact ⟨.getOrBuild build, rfl⟩
  | get => exact ⟨.get, rfl⟩

/-! ## Runs -/

theorem run_append (holder : Holder α) (before after : List (Use α)) :
    holder.run (before ++ after) =
      ((holder.run before).1 ++ ((holder.run before).2.run after).1,
        ((holder.run before).2.run after).2) := by
  induction before generalizing holder with
  | nil => rfl
  | cons use rest ih =>
    show run holder (use :: (rest ++ after)) = _
    simp only [run, ih, List.cons_append]

theorem run_empty {uses : List (Use α)} (h : ∀ use ∈ uses, use.offer = none) :
    List.Forall₂ AnsweredEmpty uses (empty.run uses).1 ∧ (empty.run uses).2 = empty := by
  induction uses with
  | nil => exact ⟨.nil, rfl⟩
  | cons use rest ih =>
    obtain ⟨hu, hr⟩ := List.forall_mem_cons.mp h
    obtain ⟨ha, he⟩ := step_empty hu
    rw [run, he]
    exact ⟨.cons ha (ih hr).1, (ih hr).2⟩

theorem run_held (table : Table α) (uses : List (Use α)) :
    List.Forall₂ (AnsweredFrom table) uses (run ⟨some table⟩ uses).1 ∧
      (run ⟨some table⟩ uses).2 = ⟨some table⟩ := by
  induction uses with
  | nil => exact ⟨.nil, rfl⟩
  | cons use rest ih =>
    obtain ⟨ha, he⟩ := step_held table use
    rw [run, he]
    exact ⟨.cons ha ih.1, ih.2⟩

/-- A run is cut at the first use that offers a table. -/
theorem exists_first_offer (uses : List (Use α)) : (∀ use ∈ uses, use.offer = none) ∨
    ∃ before setter after table, uses = before ++ setter :: after ∧
      (∀ use ∈ before, use.offer = none) ∧ setter.offer = some table := by
  induction uses with
  | nil => exact .inl fun use hu => nomatch hu
  | cons use rest ih =>
    cases ho : use.offer with
    | some table => exact .inr ⟨[], use, rest, table, rfl, List.forall_mem_nil _, ho⟩
    | none =>
      obtain hn | ⟨before, setter, after, table, rfl, hb, hs⟩ := ih
      · exact .inl (List.forall_mem_cons.mpr ⟨ho, hn⟩)
      · exact .inr ⟨use :: before, setter, after, table, rfl,
          List.forall_mem_cons.mpr ⟨ho, hb⟩, hs⟩

/-- A new holder is set at most once. Either no use of a run offers a table, and the holder answers
as an empty one throughout; or it does so up to the first use that offers one, answers that use with
its table, and answers every later use from that table. Before the offer is taken the holder is
empty after each use, and from then on it holds that table, whatever follows. -/
theorem first_table_is_kept (uses : List (Use α)) :
    ((∀ use ∈ uses, use.offer = none) ∧
      List.Forall₂ AnsweredEmpty uses (empty.run uses).1 ∧
      ∀ part, part <+: uses → (empty.run part).2 = empty) ∨
    ∃ before setter after table, uses = before ++ setter :: after ∧
      (∀ use ∈ before, use.offer = none) ∧ setter.offer = some table ∧
      (∃ earlier answer later, (empty.run uses).1 = earlier ++ answer :: later ∧
        List.Forall₂ AnsweredEmpty before earlier ∧
        AnsweredSetting table setter answer ∧
        List.Forall₂ (AnsweredFrom table) after later) ∧
      (∀ part, part <+: before → (empty.run part).2 = empty) ∧
      ∀ next, (empty.run (before ++ setter :: next)).2 = ⟨some table⟩ := by
  have hempty : ∀ {all : List (Use α)}, (∀ use ∈ all, use.offer = none) →
      ∀ part, part <+: all → (empty.run part).2 = empty :=
    fun h part hp => (run_empty fun use hu => h use (hp.subset hu)).2
  obtain hn | ⟨before, setter, after, table, rfl, hb, hs⟩ := exists_first_offer uses
  · exact .inl ⟨hn, (run_empty hn).1, hempty hn⟩
  · obtain ⟨hearlier, he⟩ := run_empty hb
    obtain ⟨hanswer, hset⟩ := step_setting hs
    -- Whatever follows the setter starts from the table.
    have hrun : ∀ next, empty.run (before ++ setter :: next) =
        ((empty.run before).1 ++ (empty.step setter).1 :: (run ⟨some table⟩ next).1,
          (run ⟨some table⟩ next).2) := by
      intro next
      rw [run_append, he, run, hset]
    refine .inr ⟨before, setter, after, table, rfl, hb, hs, ?_, hempty hb, fun next => ?_⟩
    · refine ⟨_, _, _, ?_, hearlier, hanswer, (run_held table after).1⟩
      rw [hrun]
    · rw [hrun]
      exact (run_held table next).2

/-! ## The built-in registry -/

/-- What a holder that is only asked for the built-in handlers may hold. -/
def HoldsBuiltIn (holder : Holder Handler) : Prop :=
  holder.table? = none ∨ holder.table? = Registry.collect

theorem HoldsBuiltIn.step {holder : Holder Handler} (h : HoldsBuiltIn holder) :
    (∃ ran, (holder.step (.getOrBuild fun _ => Registry.collect)).1 =
        .built ran Registry.handlers) ∧
      HoldsBuiltIn (holder.step (.getOrBuild fun _ => Registry.collect)).2 := by
  obtain ⟨table?⟩ := holder
  cases hc : Registry.collect with
  | none =>
    obtain rfl : table? = none := h.elim id fun he => he.trans hc
    simp only [Holder.step, Registry.handlers, Holder.getOrBuild, hc, empty]
    exact ⟨⟨true, rfl⟩, .inl rfl⟩
  | some table =>
    have hh : Registry.handlers = .ok table := by
      simp only [Registry.handlers, Holder.getOrBuild, hc, empty]
    rw [hh]
    obtain rfl | he := h
    · exact ⟨⟨true, rfl⟩, .inr hc.symm⟩
    · obtain rfl : table? = some table := he.trans hc
      exact ⟨⟨false, rfl⟩, .inr hc.symm⟩

/-- One holder that is asked for the built-in handlers again and again gives each time what a new
one gives. -/
theorem run_collect {holder : Holder Handler} (h : HoldsBuiltIn holder) (count : Nat) :
    ∀ answer ∈ (holder.run (List.replicate count (.getOrBuild fun _ => Registry.collect))).1,
      ∃ ran, answer = .built ran Registry.handlers := by
  induction count generalizing holder with
  | zero => exact List.forall_mem_nil _
  | succ count ih => exact List.forall_mem_cons.mpr ⟨h.step.1, ih h.step.2⟩

end HandlerRegistry.Dispatch.Holder
