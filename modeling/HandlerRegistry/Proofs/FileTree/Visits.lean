import HandlerRegistry.FileTree.Edit
import HandlerRegistry.Proofs.FileTree.Children
import HandlerRegistry.Proofs.Keyed

/-! # The places that a walk visits

A walk asks the tree about the places where it stands and about those it is about to enter, and
about nothing else. Two trees that agree at all places a walk visits have the same walk there
(`walk_congr`). So an entry makes no difference to a path that is not resolved through it
(`AgreeBut.resolve_eq`). -/

namespace HandlerRegistry.FileTree
set_option autoImplicit false

/-! ## Visits -/

/-- The places that a walk stands at or looks up, with those that `follow` visits from the first
link on. -/
def visitedWith (tree : FileTree) (follow : Place → Path → List Path.Step → List Place) :
    Place → List Path.Step → List Place
  | place, [] => [place]
  | place, step :: rest => place ::
    if tree.isDirectoryAt place then
      match step with
      | .stay => visitedWith tree follow place rest
      | .up => visitedWith tree follow place.tail rest
      | .overlong => []
      | .enter name =>
        match tree.lookup (name :: place) with
        | none => [name :: place]
        | some (.link target) => (name :: place) :: follow place target rest
        | some _ => visitedWith tree follow (name :: place) rest
    else []

/-- The places that a walk visits, links followed as the walk follows them. -/
def visited (tree : FileTree) : Nat → Place → List Path.Step → List Place
  | 0 => tree.visitedWith fun _ _ _ => []
  | links + 1 => tree.visitedWith fun place target rest =>
      tree.visited links (startOf place target) (target.steps ++ rest)

/-- The places visited on the way to where a path leads. -/
def visitedBy (tree : FileTree) (path : Path) : List Place :=
  match pathFault path with
  | some _ => []
  | none => tree.visited maxLinks (startOf tree.home path) path.steps

/-- Whether a path is resolved through an entry, that is, by way of the entry or a place below. -/
def ResolvesThrough (tree : FileTree) (path : Path) (entry : Place) : Prop :=
  ∃ place ∈ tree.visitedBy path, isWithin entry place = true

instance (tree : FileTree) (path : Path) (entry : Place) :
    Decidable (tree.ResolvesThrough path entry) :=
  inferInstanceAs (Decidable (∃ place ∈ tree.visitedBy path, isWithin entry place = true))

section
variable {tree : FileTree} {place target : Place} {steps : List Path.Step} {path : Path}

theorem mem_visitedWith {follow : Place → Path → List Path.Step → Except IoError Place}
    {visits : Place → Path → List Path.Step → List Place}
    (hf : ∀ place link rest, follow place link rest = .ok target → target ∈ visits place link rest)
    (h : tree.walkWith follow place steps = .ok target) :
    target ∈ tree.visitedWith visits place steps := by
  induction steps generalizing place with
  | nil =>
    cases h
    exact List.mem_singleton_self _
  | cons step rest ih =>
    simp only [walkWith] at h
    simp only [visitedWith]
    apply List.mem_cons_of_mem
    by_cases hd : tree.isDirectoryAt place
    · simp only [hd, if_true] at h ⊢
      cases step with
      | stay => exact ih h
      | up => exact ih h
      | overlong => cases h
      | enter name =>
        simp only at h ⊢
        cases hl : tree.lookup (name :: place) with
        | none =>
          rw [hl] at h
          cases h
        | some node =>
          rw [hl] at h
          cases node with
          | file content mode => exact ih h
          | directory => exact ih h
          | link link => exact List.mem_cons_of_mem _ (hf place link rest h)
    · simp only [hd] at h
      cases h

/-- A walk ends at a place that it visits. -/
theorem mem_visited {links : Nat} (h : tree.walk links place steps = .ok target) :
    target ∈ tree.visited links place steps := by
  induction links generalizing place steps with
  | zero =>
    refine mem_visitedWith (fun _ _ _ he => ?_) h
    cases he
  | succ links ih => exact mem_visitedWith (fun _ _ _ => ih) h

theorem mem_visitedBy (h : tree.resolve path = .ok target) : target ∈ tree.visitedBy path := by
  have hf := pathFault_of_walkPath h
  rw [resolve, walkPath, hf] at h
  rw [visitedBy, hf]
  exact mem_visited h

end

/-! ## Trees that agree where one walks -/

/-- Two trees that give the same answers about the places of a list. -/
def SameAt (a b : FileTree) (places : List Place) : Prop :=
  ∀ place ∈ places, a.lookup place = b.lookup place

section
variable {a b : FileTree}

theorem isDirectoryAt_congr {place : Place} (h : a.lookup place = b.lookup place) :
    a.isDirectoryAt place = b.isDirectoryAt place := by
  rw [isDirectoryAt, isDirectoryAt, h]

/-- One round of a walk, up to its first link. -/
theorem walkWith_congr {follow other : Place → Path → List Path.Step → Except IoError Place}
    {visits others : Place → Path → List Path.Step → List Place}
    (hf : ∀ place link rest, SameAt a b (visits place link rest) →
      follow place link rest = other place link rest ∧
        visits place link rest = others place link rest)
    {place : Place} {steps : List Path.Step}
    (same : SameAt a b (a.visitedWith visits place steps)) :
    a.walkWith follow place steps = b.walkWith other place steps ∧
      a.visitedWith visits place steps = b.visitedWith others place steps := by
  induction steps generalizing place with
  | nil => exact ⟨rfl, rfl⟩
  | cons step rest ih =>
    simp only [visitedWith] at same
    obtain ⟨hp, hr⟩ := List.forall_mem_cons.mp same
    simp only [walkWith, visitedWith, ← isDirectoryAt_congr hp]
    by_cases hd : a.isDirectoryAt place
    · simp only [hd, if_true] at hr ⊢
      cases step with
      | stay =>
        obtain ⟨hw, hv⟩ := ih hr
        exact ⟨hw, congrArg _ hv⟩
      | up =>
        obtain ⟨hw, hv⟩ := ih hr
        exact ⟨hw, congrArg _ hv⟩
      | overlong => exact ⟨rfl, rfl⟩
      | enter name =>
        -- Whatever the answer about the entered place is, that place is among those visited.
        have he : a.lookup (name :: place) = b.lookup (name :: place) := by
          apply hr
          simp only
          cases a.lookup (name :: place) with
          | none => exact List.mem_singleton_self _
          | some node => cases node <;> cases rest <;> simp [visitedWith]
        simp only [← he]
        simp only at hr
        cases hl : a.lookup (name :: place) with
        | none => exact ⟨rfl, rfl⟩
        | some node =>
          rw [hl] at hr
          cases node with
          | file content mode =>
            obtain ⟨hw, hv⟩ := ih hr
            exact ⟨hw, congrArg _ hv⟩
          | directory =>
            obtain ⟨hw, hv⟩ := ih hr
            exact ⟨hw, congrArg _ hv⟩
          | link target =>
            obtain ⟨hw, hv⟩ := hf place target rest (List.forall_mem_cons.mp hr).2
            exact ⟨hw, by simp only [hv]⟩
    · simp only [hd]
      exact ⟨rfl, rfl⟩

/-- A walk depends only on what the tree says about the places that it visits. -/
theorem walk_congr {links : Nat} {place : Place} {steps : List Path.Step}
    (same : SameAt a b (a.visited links place steps)) :
    a.walk links place steps = b.walk links place steps ∧
      a.visited links place steps = b.visited links place steps := by
  induction links generalizing place steps with
  | zero => exact walkWith_congr (fun _ _ _ _ => ⟨rfl, rfl⟩) same
  | succ links ih => exact walkWith_congr (fun _ _ _ => ih) same

theorem resolve_congr (home : a.home = b.home) {path : Path}
    (same : SameAt a b (a.visitedBy path)) :
    a.resolve path = b.resolve path ∧ a.visitedBy path = b.visitedBy path := by
  rw [visitedBy] at same
  rw [resolve, resolve, walkPath, walkPath, visitedBy, visitedBy, ← home]
  cases hf : pathFault path with
  | some cause => exact ⟨rfl, rfl⟩
  | none =>
    rw [hf] at same
    exact walk_congr same

end

/-! ## Trees that agree but for one entry -/

/-- Two trees that differ in no more than one entry of a directory and what is below that entry. The
directory lists its other entries in the same order. -/
structure AgreeBut (name : Name) (directory : Place) (a b : FileTree) : Prop where
  home : a.home = b.home
  lookup : ∀ place, isWithin (name :: directory) place = false → a.lookup place = b.lookup place
  order : (a.childrenOf directory).filter (· ≠ name) = (b.childrenOf directory).filter (· ≠ name)

theorem isWithin_self (entry : Place) : isWithin entry entry = true :=
  List.isSuffixOf_iff_suffix.mpr (List.suffix_refl entry)

theorem isWithin_cons_self (name : Name) (directory : Place) :
    isWithin (name :: directory) directory = false := by
  rw [isWithin, ← Bool.not_eq_true, List.isSuffixOf_iff_suffix]
  intro h
  have hl := h.length_le
  rw [List.length_cons] at hl
  omega

theorem isWithin_sibling {name other : Name} (h : other ≠ name) (directory : Place) :
    isWithin (name :: directory) (other :: directory) = false := by
  rw [isWithin, ← Bool.not_eq_true, List.isSuffixOf_iff_suffix]
  intro hs
  have he := hs.eq_of_length rfl
  exact h (List.cons.inj he).1.symm

namespace AgreeBut
variable {name : Name} {directory : Place} {a b : FileTree}

theorem symm (h : AgreeBut name directory a b) : AgreeBut name directory b a where
  home := h.home.symm
  lookup place hp := (h.lookup place hp).symm
  order := h.order.symm

theorem isDirectoryAt_eq (h : AgreeBut name directory a b) {place : Place}
    (hp : isWithin (name :: directory) place = false) :
    a.isDirectoryAt place = b.isDirectoryAt place :=
  isDirectoryAt_congr (h.lookup place hp)

/-- A path that is not resolved through the entry is resolved alike, by way of the same places. -/
theorem resolve_eq (h : AgreeBut name directory a b) {path : Path}
    (apart : ¬ a.ResolvesThrough path (name :: directory)) :
    a.resolve path = b.resolve path ∧ a.visitedBy path = b.visitedBy path := by
  apply resolve_congr h.home
  intro place hp
  apply h.lookup
  rw [← Bool.not_eq_true]
  exact fun hw => apart ⟨place, hp, hw⟩

theorem not_resolvesThrough (h : AgreeBut name directory a b) {path : Path}
    (apart : ¬ a.ResolvesThrough path (name :: directory)) :
    ¬ b.ResolvesThrough path (name :: directory) := by
  rw [ResolvesThrough, ← (h.resolve_eq apart).2]
  exact apart

theorem isDirectory_eq (h : AgreeBut name directory a b) {path : Path}
    (apart : ¬ a.ResolvesThrough path (name :: directory)) :
    a.isDirectory path = b.isDirectory path := by
  rw [isDirectory, isDirectory, ← (h.resolve_eq apart).1]
  cases hr : a.resolve path with
  | error cause => rfl
  | ok target =>
    apply h.isDirectoryAt_eq
    rw [← Bool.not_eq_true]
    exact fun hw => apart ⟨target, mem_visitedBy hr, hw⟩

theorem resolveDirectory_eq (h : AgreeBut name directory a b) {path : Path}
    (apart : ¬ a.ResolvesThrough path (name :: directory))
    (listed : a.resolveDirectory path = .ok directory) :
    b.resolveDirectory path = .ok directory := by
  rw [resolveDirectory_eq_ok_iff] at listed ⊢
  rw [← (h.resolve_eq apart).1, ← h.isDirectoryAt_eq (isWithin_cons_self name directory)]
  exact listed

end AgreeBut

/-! ## Entries that come and go -/

/-- A new entry. -/
theorem agreeBut_put {tree : FileTree} {name : Name} {directory : Place}
    (vacant : tree.lookup (name :: directory) = none) (node : Node) :
    AgreeBut name directory (tree.put (name :: directory) node) tree where
  home := rfl
  lookup place hp := by
    rw [lookup_put, if_neg]
    rintro rfl
    rw [isWithin_self] at hp
    cases hp
  order := by
    have hm := (Keyed.lookup_eq_none_iff _ _).mp vacant
    rw [childrenOf, put]
    simp only [Keyed.set_of_not_mem hm]
    rw [List.filterMap_append, List.filter_append, childrenOf]
    simp [childName?]

/-- An entry removed with all that is below it. -/
theorem agreeBut_keep (tree : FileTree) (name : Name) (directory : Place) :
    AgreeBut name directory (tree.keep fun place => !isWithin (name :: directory) place) tree where
  home := rfl
  lookup place hp := by
    have hk := Keyed.lookup_filter (fun q => !isWithin (name :: directory) q) place tree.entries
    rw [lookup, keep]
    simp only [hk, hp]
    rfl
  order := by
    rw [childrenOf, childrenOf, keep, List.filterMap_filter, List.filter_filterMap,
      List.filter_filterMap]
    apply List.filterMap_congr
    intro entry _
    cases hc : childName? directory entry.1 with
    | none => simp
    | some other =>
      rw [childName?_eq_some_iff.mp hc]
      by_cases h : other = name
      · subst h
        simp [isWithin_self, Option.filter]
      · simp [isWithin_sibling h]

end HandlerRegistry.FileTree
