import HandlerRegistry.Proofs.FileTree.Children
import HandlerRegistry.Text.Utf8.Lemmas

/-! # Paths read in another directory

An absolute path leads to the same place wherever it is read; a relative one is read in some
directory (`resolveFrom`). Whatever leads somewhere has a last component, and the directory that
holds this one can be walked to (`exists_parentPlace`). -/

namespace HandlerRegistry
set_option autoImplicit false

/-! ## Paths that are texts -/

namespace Path
variable {path : Path} {name : Name}

/-- A path that can be shown as it is. -/
def IsText (path : Path) : Prop := ∃ text, path.bytes = Utf8.encode text

theorem display_ofText (text : String) : (ofText text).display = text := Utf8.lossy_encode text

theorem IsText.ofText_display (h : path.IsText) : ofText path.display = path := by
  obtain ⟨text, ht⟩ := h
  rw [ofText, display, ht, Utf8.lossy_encode, ← ht]

theorem IsText.join (h : path.IsText) (hn : ∃ text, name.bytes = Utf8.encode text) :
    (path.join name).IsText := by
  obtain ⟨text, ht⟩ := h
  obtain ⟨last, hl⟩ := hn
  obtain ⟨between, hj, rfl | rfl⟩ := path.join_cases name
  · refine ⟨text ++ last, ?_⟩
    rw [hj, Utf8.encode_append, ht, hl]
    rfl
  · have hs : [slash] = Utf8.encode "/" := rfl
    refine ⟨text ++ ("/" ++ last), ?_⟩
    rw [hj, Utf8.encode_append, Utf8.encode_append, ht, hl, hs]

end Path

namespace FileTree
variable {tree : FileTree} {path : Path} {place : Place}

/-! ## Where a path leads from some directory -/

/-- The place that a path leads to if it is read in a directory. -/
def resolveFrom (tree : FileTree) (directory : Place) (path : Path) : Except IoError Place :=
  match pathFault path with
  | some cause => .error cause
  | none => tree.walk maxLinks (startOf directory path) path.steps

theorem resolveFrom_home (tree : FileTree) (path : Path) :
    tree.resolveFrom tree.home path = tree.resolve path := rfl

theorem resolveFrom_absolute (h : path.isAbsolute = true) (directory : Place) :
    tree.resolveFrom directory path = tree.resolve path := by
  rw [resolveFrom, resolve, walkPath, startOf, startOf, h]
  rfl

/-! ## The directory above -/

theorem isDirectoryAt_of_walk {links : Nat} {target : Place} {step : Path.Step}
    {rest : List Path.Step} (h : tree.walk links place (step :: rest) = .ok target) :
    tree.isDirectoryAt place = true := by
  by_contra hd
  cases links <;> simp [walk, walkWith, hd] at h

/-- The walk of a path begins with the steps above its entry and does not end there. -/
theorem steps_eq_splitEntry (path : Path) : ∃ step rest,
    path.steps = (splitEntry path).1.map Path.Step.ofSegment ++ step :: rest := by
  have hs : path.segments = (path.segments.reverse.dropWhile List.isEmpty).reverse ++
      (path.segments.reverse.takeWhile List.isEmpty).reverse := by
    rw [← List.reverse_append, List.takeWhile_append_dropWhile, List.reverse_reverse]
  rw [splitEntry]
  cases hd : path.segments.reverse.dropWhile List.isEmpty with
  | nil =>
    obtain ⟨first, others, hf⟩ := List.exists_cons_of_ne_nil (List.splitOn_ne_nil slash path.bytes)
    exact ⟨_, _, congrArg (List.map Path.Step.ofSegment) hf⟩
  | cons last above =>
    rw [hd, List.reverse_cons, List.append_assoc, List.singleton_append] at hs
    rw [Path.steps, hs, List.map_append, List.map_cons]
    exact ⟨_, _, rfl⟩

theorem exists_parentPlace (h : tree.resolve path = .ok place) :
    ∃ directory, tree.parentPlace path = .ok directory := by
  have hf := pathFault_of_walkPath h
  obtain ⟨step, rest, hs⟩ := steps_eq_splitEntry path
  obtain ⟨left, -, ha⟩ := walk_append tree maxLinks (startOf tree.home path)
    ((splitEntry path).1.map Path.Step.ofSegment)
  rw [resolve, walkPath, hf, hs] at h
  simp only [ha] at h
  cases hw : tree.walk maxLinks (startOf tree.home path)
      ((splitEntry path).1.map Path.Step.ofSegment) with
  | error cause =>
    rw [hw] at h
    cases h
  | ok directory =>
    rw [hw] at h
    refine ⟨directory, ?_⟩
    rw [parentPlace, walkPath, hf]
    exact walk_append_stay_eq_ok_iff.mpr ⟨hw, isDirectoryAt_of_walk h⟩

theorem exists_parentPlace_of_entryPlace (h : tree.entryPlace path = .ok place) :
    ∃ directory, tree.parentPlace path = .ok directory := by
  rw [entryPlace] at h
  cases hp : tree.parentPlace path with
  | error cause =>
    rw [hp] at h
    cases h
  | ok directory => exact ⟨directory, rfl⟩

end FileTree
end HandlerRegistry
