import HandlerRegistry.FileTree.Resolve

/-! # How walks compose and what they depend on

A walk can be cut anywhere: the second part starts where the first one ended, with the links that
it left over (`walk_append`). A walk depends only on the entries that it can meet: two trees which
differ only under a name that neither the steps nor any link mentions have the same walks
(`AgreeApart.walk_together`). -/

namespace HandlerRegistry.FileTree
set_option autoImplicit false

/-! ## Walks cut in two -/

theorem walkWith_append (tree : FileTree)
    (follow : Place → Path → List Path.Step → Except IoError Place)
    (place : Place) (steps : List Path.Step) :
    (∀ rest, tree.walkWith follow place (steps ++ rest) =
        (tree.walkWith follow place steps).bind fun target => tree.walkWith follow target rest) ∨
      ∃ directory link remaining, ∀ rest, tree.walkWith follow place (steps ++ rest) =
        follow directory link (remaining ++ rest) := by
  induction steps generalizing place with
  | nil => exact Or.inl fun rest => rfl
  | cons step steps ih =>
    simp only [List.cons_append, walkWith]
    by_cases hd : tree.isDirectoryAt place
    · simp only [hd, if_true]
      cases step with
      | stay => exact ih place
      | up => exact ih place.tail
      | overlong => exact Or.inl fun rest => rfl
      | enter name =>
        simp only
        cases hl : tree.lookup (name :: place) with
        | none => exact Or.inl fun rest => rfl
        | some node =>
          cases node with
          | file content mode => exact ih (name :: place)
          | directory => exact ih (name :: place)
          | link target => exact Or.inr ⟨place, target, steps, fun rest => rfl⟩
    · simp only [hd]
      exact Or.inl fun rest => rfl

/-- A walk cut in two. How many links are left for the second part does not depend on it. -/
theorem walk_append (tree : FileTree) (links : Nat) (place : Place) (steps : List Path.Step) :
    ∃ left ≤ links, ∀ rest, tree.walk links place (steps ++ rest) =
      (tree.walk links place steps).bind fun target => tree.walk left target rest := by
  induction links generalizing place steps with
  | zero =>
    obtain hc | ⟨directory, link, remaining, hf⟩ := walkWith_append tree _ place steps
    · exact ⟨0, Nat.le_refl 0, hc⟩
    · refine ⟨0, Nat.le_refl 0, fun rest => ?_⟩
      have h0 := hf []
      rw [List.append_nil] at h0
      simp only [walk, hf rest, h0]
      rfl
  | succ links ih =>
    obtain hc | ⟨directory, link, remaining, hf⟩ := walkWith_append tree _ place steps
    · exact ⟨links + 1, Nat.le_refl _, hc⟩
    -- A link among the first steps: the walk goes on, with one link fewer, from its target.
    · obtain ⟨left, hl, hr⟩ := ih (startOf directory link) (link.steps ++ remaining)
      refine ⟨left, Nat.le_succ_of_le hl, fun rest => ?_⟩
      have h0 := hf []
      rw [List.append_nil, List.append_nil] at h0
      have hw := hr rest
      rw [List.append_assoc, ← h0] at hw
      exact (hf rest).trans hw

/-! ## Single steps -/

theorem walk_nil (tree : FileTree) (links : Nat) (place : Place) :
    tree.walk links place [] = .ok place := by
  cases links <;> rfl

theorem walk_stay (tree : FileTree) (links : Nat) (place : Place) (rest : List Path.Step) :
    tree.walk links place (.stay :: rest) =
      if tree.isDirectoryAt place then tree.walk links place rest
      else .error .notADirectory := by
  cases links <;> rfl

/-- A step to an entry that is no link. -/
theorem walk_enter {tree : FileTree} {place : Place} {name : Name} {node : Node}
    (hd : tree.isDirectoryAt place = true) (hn : tree.lookup (name :: place) = some node)
    (hl : ∀ target, node ≠ .link target) (links : Nat) (rest : List Path.Step) :
    tree.walk links place (.enter name :: rest) = tree.walk links (name :: place) rest := by
  cases node with
  | file content mode => cases links <;> simp [walk, walkWith, hd, hn]
  | directory => cases links <;> simp [walk, walkWith, hd, hn]
  | link target => exact absurd rfl (hl target)

theorem ite_isDirectoryAt_eq_ok_iff {tree : FileTree} {reached place : Place} {cause : IoError} :
    (if tree.isDirectoryAt reached then .ok reached else .error cause) = Except.ok place ↔
      (.ok reached : Except IoError Place) = .ok place ∧ tree.isDirectoryAt place = true := by
  by_cases hd : tree.isDirectoryAt reached
  · simp only [hd, if_true, Except.ok.injEq]
    exact ⟨fun e => ⟨e, e ▸ hd⟩, fun e => e.1⟩
  · simp only [hd, Except.ok.injEq]
    exact ⟨fun e => (nomatch e), fun e => absurd (e.1 ▸ e.2) hd⟩

/-- A walk that stays at its end has to end in a directory. -/
theorem walk_append_stay_eq_ok_iff {tree : FileTree} {links : Nat} {place target : Place}
    {steps : List Path.Step} :
    tree.walk links place (steps ++ [.stay]) = .ok target ↔
      tree.walk links place steps = .ok target ∧ tree.isDirectoryAt target = true := by
  obtain ⟨left, -, ha⟩ := walk_append tree links place steps
  rw [ha]
  cases tree.walk links place steps with
  | error cause => simp [Except.bind]
  | ok reached =>
    simp only [Except.bind, walk_stay, walk_nil]
    exact ite_isDirectoryAt_eq_ok_iff

/-- Staying in a directory, however often, changes nothing. -/
theorem walk_append_stays {tree : FileTree} {links : Nat} {place target : Place}
    {steps : List Path.Step} (hd : tree.isDirectoryAt target = true) (count : Nat) :
    tree.walk links place (steps ++ List.replicate count .stay) = .ok target ↔
      tree.walk links place steps = .ok target := by
  induction count with
  | zero => rw [List.replicate_zero, List.append_nil]
  | succ count ih =>
    rw [List.replicate_succ', ← List.append_assoc, walk_append_stay_eq_ok_iff, ih]
    exact and_iff_left hd

/-! ## Trees that differ under one name -/

/-- Two trees with the same entries, but for those in whose place a certain name occurs. No link
elsewhere mentions that name. -/
structure AgreeApart (name : Name) (a b : FileTree) : Prop where
  home : a.home = b.home
  apart : name ∉ b.home
  lookup : ∀ place, name ∉ place → a.lookup place = b.lookup place
  targets : ∀ place target, name ∉ place → b.lookup place = some (.link target) →
    Path.Step.enter name ∉ target.steps

namespace AgreeApart
variable {name : Name} {a b : FileTree}

theorem isDirectoryAt_eq (h : AgreeApart name a b) {place : Place} (hp : name ∉ place) :
    a.isDirectoryAt place = b.isDirectoryAt place := by
  rw [isDirectoryAt, isDirectoryAt, h.lookup place hp]

theorem startOf_apart {place : Place} (hp : name ∉ place) (path : Path) :
    name ∉ startOf place path := by
  rw [startOf]
  split
  · exact List.not_mem_nil
  · exact hp

/-- Two walks with the same outcome, which is apart from the name. -/
def Together (name : Name) (r s : Except IoError Place) : Prop :=
  r = s ∧ ∀ target, s = .ok target → name ∉ target

theorem Together.error (cause : IoError) : Together name (.error cause) (.error cause) :=
  ⟨rfl, fun _ h => nomatch h⟩

/-- One round of a walk, up to its first link. -/
theorem walkWith_together (h : AgreeApart name a b)
    {follow other : Place → Path → List Path.Step → Except IoError Place}
    (hf : ∀ place target rest, name ∉ place → Path.Step.enter name ∉ target.steps →
      Path.Step.enter name ∉ rest → Together name (follow place target rest)
        (other place target rest))
    {place : Place} {steps : List Path.Step} (hp : name ∉ place)
    (hs : Path.Step.enter name ∉ steps) :
    Together name (a.walkWith follow place steps) (b.walkWith other place steps) := by
  induction steps generalizing place with
  | nil => exact ⟨rfl, fun target ht => Except.ok.inj ht ▸ hp⟩
  | cons step steps ih =>
    obtain ⟨hne, hr⟩ : Path.Step.enter name ≠ step ∧ Path.Step.enter name ∉ steps := by
      simpa only [List.mem_cons, not_or] using hs
    simp only [walkWith, h.isDirectoryAt_eq hp]
    by_cases hd : b.isDirectoryAt place
    · simp only [hd, if_true]
      cases step with
      | stay => exact ih hp hr
      | up => exact ih (fun hm => hp (List.mem_of_mem_tail hm)) hr
      | overlong => exact Together.error _
      | enter entered =>
        have he : name ∉ entered :: place :=
          List.not_mem_cons_of_ne_of_not_mem (fun e => hne (e ▸ rfl)) hp
        simp only [h.lookup _ he]
        cases hl : b.lookup (entered :: place) with
        | none => exact Together.error _
        | some node =>
          cases node with
          | file content mode => exact ih he hr
          | directory => exact ih he hr
          | link target => exact hf place target steps hp (h.targets _ target he hl) hr
    · simp only [hd]
      exact Together.error _

/-- Neither tree's walks tell them apart. -/
theorem walk_together (h : AgreeApart name a b) (links : Nat) {place : Place}
    {steps : List Path.Step} (hp : name ∉ place) (hs : Path.Step.enter name ∉ steps) :
    Together name (a.walk links place steps) (b.walk links place steps) := by
  induction links generalizing place steps with
  | zero => exact h.walkWith_together (fun _ _ _ _ _ _ => Together.error _) hp hs
  | succ links ih =>
    -- The steps after a link are those of its target and the rest, and none mentions the name.
    refine h.walkWith_together (fun directory target rest hd ht hr => ?_) hp hs
    refine ih (startOf_apart hd target) ?_
    rw [List.mem_append]
    rintro (hm | hm)
    · exact ht hm
    · exact hr hm

theorem walkPath_together (h : AgreeApart name a b) (path : Path) {steps : List Path.Step}
    (hs : Path.Step.enter name ∉ steps) :
    Together name (a.walkPath path steps) (b.walkPath path steps) := by
  simp only [walkPath, h.home]
  cases pathFault path with
  | some cause => exact Together.error cause
  | none => exact h.walk_together maxLinks (startOf_apart h.apart path) hs

theorem resolve_together (h : AgreeApart name a b) {path : Path}
    (hs : Path.Step.enter name ∉ path.steps) : Together name (a.resolve path) (b.resolve path) :=
  h.walkPath_together path hs

end AgreeApart
end HandlerRegistry.FileTree
