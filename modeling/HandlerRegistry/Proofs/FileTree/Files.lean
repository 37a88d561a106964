import HandlerRegistry.Proofs.FileTree.Changes

/-! # What a path leads to

In a tree of which every entry lies in a directory, a walk can end only in a directory or at a
regular file: links are followed, and the way up from a directory leads to a directory
(`Closed.resolve_cases`). What exists there is the one or the other (`Closed.isFile_eq`). A regular
file can be there and yet not be read (`fileContent_eq_ok_iff`). -/

namespace HandlerRegistry.FileTree
set_option autoImplicit false

variable {tree : FileTree} {path : Path} {place target : Place} {content : List UInt8} {mode : Nat}
  {standing : Standing}

/-! ## Regular files -/

/-- A path leads to a regular file, links followed. -/
def LeadsToFile (tree : FileTree) (path : Path) (place : Place) (content : List UInt8)
    (mode : Nat) (standing : Standing) : Prop :=
  tree.resolve path = .ok place ∧ tree.lookup place = some (.file content mode standing)

/-- Whether a path leads to a regular file, which the process may read or not. -/
def isFile (tree : FileTree) (path : Path) : Bool :=
  match tree.resolve path with
  | .ok place =>
    match tree.lookup place with
    | some (.file _ _ _) => true
    | _ => false
  | .error _ => false

theorem isFile_iff : tree.isFile path = true ↔
    ∃ place content mode standing, tree.LeadsToFile path place content mode standing := by
  simp only [LeadsToFile, isFile]
  cases hr : tree.resolve path with
  | error cause => simp
  | ok place =>
    cases hl : tree.lookup place with
    | none => simp [hl]
    | some node => cases node <;> simp [hl]

/-! ## Files that may be read -/

/-- A path leads to a regular file that the process may read. -/
def Readable (tree : FileTree) (path : Path) : Prop :=
  ∃ place content mode standing, tree.LeadsToFile path place content mode standing ∧
    tree.mayRead mode standing = true

/-- A file is found in one place, as one content with one mode. -/
theorem LeadsToFile.unique {other : Place} {found : List UInt8} {old : Nat} {relation : Standing}
    (h : tree.LeadsToFile path place content mode standing)
    (ho : tree.LeadsToFile path other found old relation) :
    other = place ∧ found = content ∧ old = mode ∧ relation = standing := by
  obtain rfl := Except.ok.inj (ho.1.symm.trans h.1)
  exact ⟨rfl, Node.file.inj (Option.some.inj (ho.2.symm.trans h.2))⟩

/-- Reading a file gives its content or is refused. -/
theorem LeadsToFile.fileContent (h : tree.LeadsToFile path place content mode standing) :
    tree.fileContent path =
      if tree.mayRead mode standing then .ok content else .error .permissionDenied := by
  obtain ⟨hr, hl⟩ := h
  rw [FileTree.fileContent, hr]
  simp only [bind, Except.bind, hl]

theorem LeadsToFile.readable_iff (h : tree.LeadsToFile path place content mode standing) :
    tree.Readable path ↔ tree.mayRead mode standing = true := by
  refine ⟨?_, fun hm => ⟨place, content, mode, standing, h, hm⟩⟩
  rintro ⟨other, found, old, relation, ho, hm⟩
  obtain ⟨-, -, rfl, rfl⟩ := h.unique ho
  exact hm

theorem fileContent_eq_ok_iff : tree.fileContent path = .ok content ↔
    ∃ place mode standing, tree.LeadsToFile path place content mode standing ∧
      tree.mayRead mode standing = true := by
  simp only [LeadsToFile, fileContent, and_assoc]
  cases hr : tree.resolve path with
  | error cause => simp [bind, Except.bind]
  | ok place =>
    simp only [bind, Except.bind, Except.ok.injEq]
    cases hl : tree.lookup place with
    | none => simp [hl]
    | some node =>
      cases node with
      | file found mode standing =>
        cases hm : tree.mayRead mode standing <;> simp [hl, hm, and_assoc]
      | directory => simp [hl]
      | link target => simp [hl]

theorem readable_iff :
    tree.Readable path ↔ ∃ content, tree.fileContent path = .ok content := by
  simp only [Readable, fileContent_eq_ok_iff]
  exact ⟨fun ⟨place, content, h⟩ => ⟨content, place, h⟩,
    fun ⟨content, place, h⟩ => ⟨place, content, h⟩⟩

/-! ## Paths that lead nowhere -/

theorem isDirectory_of_missing (h : tree.pathExists path = false) :
    tree.isDirectory path = false := by
  rw [pathExists] at h
  rw [isDirectory]
  cases hr : tree.resolve path with
  | error cause => rfl
  | ok place => simp [hr, Except.toBool] at h

/-! ## Entries in directories -/

/-- Every entry lies in a directory, and relative paths start from one. -/
structure Closed (tree : FileTree) : Prop where
  home : tree.isDirectoryAt tree.home = true
  entries : ∀ entry ∈ tree.entries, entry.1 ≠ [] ∧ tree.isDirectoryAt entry.1.tail = true

instance (tree : FileTree) : Decidable tree.Closed :=
  decidable_of_iff (tree.isDirectoryAt tree.home = true ∧
    ∀ entry ∈ tree.entries, entry.1 ≠ [] ∧ tree.isDirectoryAt entry.1.tail = true)
    ⟨fun h => ⟨h.1, h.2⟩, fun h => ⟨h.home, h.entries⟩⟩

/-- What a walk can end at. -/
def Ends (tree : FileTree) (place : Place) : Prop :=
  tree.isDirectoryAt place = true ∨
    ∃ content mode standing, tree.lookup place = some (.file content mode standing)

theorem isDirectoryAt_nil : tree.isDirectoryAt [] = true := rfl

namespace Closed

theorem isDirectoryAt_tail (h : tree.Closed) (hd : tree.isDirectoryAt place = true) :
    tree.isDirectoryAt place.tail = true := by
  cases place with
  | nil => exact isDirectoryAt_nil
  | cons name above =>
    have hl : tree.lookup (name :: above) = some .directory := by
      simpa [isDirectoryAt] using hd
    exact (h.entries _ (mem_of_lookup hl)).2

theorem isDirectoryAt_startOf (hd : tree.isDirectoryAt place = true) (path : Path) :
    tree.isDirectoryAt (startOf place path) = true := by
  rw [startOf]
  split
  · exact isDirectoryAt_nil
  · exact hd

/-- One round of a walk, up to its first link. -/
theorem walkWith_ends (h : tree.Closed)
    {follow : Place → Path → List Path.Step → Except IoError Place}
    (hf : ∀ place link rest target, tree.isDirectoryAt place = true →
      follow place link rest = .ok target → tree.Ends target)
    {steps : List Path.Step} (hp : tree.Ends place)
    (hw : tree.walkWith follow place steps = .ok target) : tree.Ends target := by
  induction steps generalizing place with
  | nil =>
    cases hw
    exact hp
  | cons step rest ih =>
    simp only [walkWith] at hw
    by_cases hd : tree.isDirectoryAt place
    · simp only [hd, if_true] at hw
      cases step with
      | stay => exact ih hp hw
      | up => exact ih (.inl (h.isDirectoryAt_tail hd)) hw
      | overlong => cases hw
      | enter name =>
        simp only at hw
        cases hl : tree.lookup (name :: place) with
        | none =>
          rw [hl] at hw
          cases hw
        | some node =>
          rw [hl] at hw
          cases node with
          | file content mode standing => exact ih (.inr ⟨content, mode, standing, hl⟩) hw
          | directory => exact ih (.inl (by simp [isDirectoryAt, hl])) hw
          | link link => exact hf place link rest target hd hw
    · simp only [hd] at hw
      cases hw

theorem walk_ends (h : tree.Closed) {links : Nat} {steps : List Path.Step}
    (hd : tree.isDirectoryAt place = true) (hw : tree.walk links place steps = .ok target) :
    tree.Ends target := by
  induction links generalizing place target steps with
  | zero =>
    refine h.walkWith_ends (fun _ _ _ _ _ he => ?_) (.inl hd) hw
    cases he
  | succ links ih =>
    refine h.walkWith_ends (fun directory link rest target hp he => ?_) (.inl hd) hw
    exact ih (isDirectoryAt_startOf hp link) he

theorem resolve_cases (h : tree.Closed) (hr : tree.resolve path = .ok place) :
    tree.isDirectoryAt place = true ∨
      ∃ content mode standing, tree.lookup place = some (.file content mode standing) := by
  have hf := pathFault_of_walkPath hr
  rw [resolve, walkPath, hf] at hr
  exact h.walk_ends (isDirectoryAt_startOf h.home path) hr

theorem isDirectoryAt_of_file (h : tree.Closed)
    (hl : tree.lookup place = some (.file content mode standing)) :
    tree.isDirectoryAt place = false := by
  have hp : place ≠ [] := (h.entries _ (mem_of_lookup hl)).1
  simp [isDirectoryAt, hp, hl]

/-- The regular files are what exists and is no directory. -/
theorem isFile_eq (h : tree.Closed) (path : Path) :
    tree.isFile path = (tree.pathExists path && !tree.isDirectory path) := by
  cases hr : tree.resolve path with
  | error cause => simp [isFile, pathExists, hr, Except.toBool]
  | ok place =>
    have he : tree.pathExists path = true := by simp [pathExists, hr, Except.toBool]
    have hd : tree.isDirectory path = tree.isDirectoryAt place := by simp [isDirectory, hr]
    rw [he, hd, Bool.true_and]
    obtain hp | ⟨content, mode, standing, hl⟩ := h.resolve_cases hr
    · rw [hp, Bool.not_true, Bool.eq_false_iff, Ne, isFile_iff]
      rintro ⟨other, content, mode, standing, ho, hl⟩
      obtain rfl := Except.ok.inj (hr.symm.trans ho)
      rw [h.isDirectoryAt_of_file hl] at hp
      cases hp
    · rw [h.isDirectoryAt_of_file hl, Bool.not_false]
      exact isFile_iff.mpr ⟨place, content, mode, standing, hr, hl⟩

end Closed
end HandlerRegistry.FileTree
