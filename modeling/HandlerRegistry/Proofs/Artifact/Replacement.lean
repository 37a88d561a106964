import HandlerRegistry.Artifact.Write
import HandlerRegistry.Proofs.FileTree.Files

/-! # What a replacement leaves

The temporary entry has a name that nothing mentions, so no walk of the replacement meets it, and it
is gone at the end, whether its content was moved or not. All that remains is one entry set, or
nothing (`replace_eq`). From this come the two halves of a write: a failed one leaves the tree as it
was (`write_error`), and one that succeeds changes at most the entry that the path names
(`write_cases`, `Replaced`). Written again, the same content leaves the tree alone (`write_again`);
it is found there unless the process may not read it (`readable_of_write`). -/

namespace HandlerRegistry.Artifact
set_option autoImplicit false

/-! ## The temporary entry -/

theorem freshName_not_mem {used : List Name} {name : Name} (h : freshName used = some name) :
    name ∉ used := by
  obtain ⟨number, -, hf⟩ := List.exists_of_findSome?_eq_some h
  obtain ⟨-, hc⟩ := Option.filter_eq_some_iff.mp hf
  intro hm
  simp [hm] at hc

theorem mem_pathNames {path : Path} {name : Name} :
    name ∈ pathNames path ↔ Path.Step.enter name ∈ path.steps := by
  rw [pathNames, List.mem_filterMap, Path.steps, List.mem_map]
  constructor
  · rintro ⟨segment, hm, hn⟩
    exact ⟨segment, hm, Path.ofSegment_eq_enter_iff.mpr (Path.ofBytes?_eq_some_iff.mp hn)⟩
  · rintro ⟨segment, hm, hn⟩
    exact ⟨segment, hm, Path.ofBytes?_eq_some_iff.mpr (Path.ofSegment_eq_enter_iff.mp hn)⟩

/-- A name in use nowhere: the path does not mention it, no entry has it, no walk meets it. -/
theorem unused_name {tree : FileTree} {path : Path} {name : Name}
    (h : name ∉ namesInUse tree path) (directory : Place) :
    Path.Step.enter name ∉ path.steps ∧ tree.lookup (name :: directory) = none ∧
      ∀ node, FileTree.AgreeApart name (tree.put (name :: directory) node) tree := by
  simp only [namesInUse, List.mem_append, not_or, List.mem_flatMap, not_exists, not_and] at h
  obtain ⟨⟨hp, hh⟩, he⟩ := h
  refine ⟨fun hm => hp (mem_pathNames.mpr hm), ?_, fun node => ?_⟩
  · rw [FileTree.lookup_eq_none_iff, List.mem_map]
    rintro ⟨entry, hm, hn⟩
    exact (he entry hm).1 (hn ▸ List.mem_cons_self)
  · refine FileTree.agreeApart_put hh (fun place target hl hm => ?_) directory node
    exact (he _ (FileTree.mem_of_lookup hl)).2 (mem_pathNames.mpr hm)

theorem createTemporary_cases {tree created : FileTree} {path : Path} {temporary : Place}
    (h : createTemporary tree path = .ok (temporary, created)) :
    ∃ name directory, name ∉ namesInUse tree path ∧
      tree.resolveDirectory path.directory = .ok directory ∧ temporary = name :: directory ∧
      created = tree.put temporary (.file [] temporaryMode .owner) := by
  rw [createTemporary] at h
  split at h
  · cases h
  · rename_i name hn
    split at h
    · cases h
    · split at h
      · cases h
      · rename_i directory hd
        cases h
        exact ⟨name, directory, freshName_not_mem hn, hd, rfl, rfl⟩

/-! ## Walks beside the temporary entry -/

section
variable {name : Name} {a b : FileTree} {path : Path}

theorem modeFor_eq (h : FileTree.AgreeApart name a b) (hs : Path.Step.enter name ∉ path.steps) :
    modeFor a path = modeFor b path := by
  obtain ⟨hr, hp⟩ := h.resolve_together hs
  rw [modeFor, modeFor, hr]
  cases hb : b.resolve path with
  | error cause => rfl
  | ok place => simp only [h.lookup place (hp place hb)]

theorem replaceablePlace_eq (h : FileTree.AgreeApart name a b)
    (hs : Path.Step.enter name ∉ path.steps) :
    replaceablePlace a path = replaceablePlace b path := by
  obtain ⟨hr, hp⟩ := h.entryPlace_together hs
  rw [replaceablePlace, replaceablePlace, hr]
  cases hb : b.entryPlace path with
  | error cause => rfl
  | ok place => simp only [h.isDirectoryAt_eq (hp place hb)]

end

/-! ## The replacement as a whole -/

/-- The temporary entry cancels out: a replacement sets the entry that the path names or nothing. -/
theorem replace_eq (tree : FileTree) (path : Path) (content : List UInt8) :
    replace tree path content =
      match createTemporary tree path with
      | .error cause => (.error cause, tree)
      | .ok _ =>
        match replaceablePlace tree path with
        | .ok place => (.ok (), tree.put place (.file content (modeFor tree path) .owner))
        | .error cause => (.error cause, tree) := by
  rw [replace]
  cases hc : createTemporary tree path with
  | error cause => rfl
  | ok made =>
    obtain ⟨temporary, created⟩ := made
    obtain ⟨name, directory, hn, hd, rfl, rfl⟩ := createTemporary_cases hc
    obtain ⟨hs, hl, ha⟩ := unused_name hn directory
    simp only [moveOnto, FileTree.put_put, modeFor_eq (ha _) hs, replaceablePlace_eq (ha _) hs,
      FileTree.erase_put hl]
    cases replaceablePlace tree path <;> rfl

theorem replaceablePlace_cases {tree : FileTree} {path : Path} {place : Place}
    (h : replaceablePlace tree path = .ok place) :
    tree.entryPlace path = .ok place ∧ path.bytes.getLast? ≠ some slash := by
  rw [replaceablePlace] at h
  split at h
  · cases h
  · split at h
    · cases h
    · rename_i found hf
      split at h
      · cases h
      · rename_i hs
        split at h
        · cases h
        · cases h
          exact ⟨hf, hs⟩

/-! ## The mode of an artifact -/

section
variable {tree : FileTree} {path : Path}

theorem modeFor_eq_of_leadsToFile {place : Place} {content : List UInt8} {mode : Nat}
    {standing : Standing} (h : tree.LeadsToFile path place content mode standing) :
    modeFor tree path = mode := by
  obtain ⟨hr, hl⟩ := h
  rw [modeFor, hr]
  simp only [hl]

theorem modeFor_eq_newMode (h : tree.isFile path = false) : modeFor tree path = newMode := by
  rw [modeFor]
  split
  · rename_i place hr
    split
    · rename_i content mode standing hl
      rw [FileTree.isFile_iff.mpr ⟨place, content, mode, standing, hr, hl⟩] at h
      cases h
    · rfl
  · rfl

/-- A privileged process may read whatever it writes, and every process what is new. -/
theorem mayRead_modeFor (h : tree.privileged = true ∨ tree.isFile path = false) :
    tree.mayRead (modeFor tree path) .owner = true := by
  rw [FileTree.mayRead, Bool.or_eq_true]
  refine h.imp id fun hn => ?_
  rw [modeFor_eq_newMode hn]
  rfl

end

/-! ## Writes that fail -/

theorem toOption_eq_some_iff {ε α : Type} {result : Except ε α} {value : α} :
    result.toOption = some value ↔ result = .ok value := by
  cases result <;> simp [Except.toOption]

theorem write_error {tree after : FileTree} {path : Path} {content : List UInt8} {failure : Failure}
    (h : write tree path content = (.error failure, after)) : after = tree := by
  rw [write, replace_eq] at h
  split at h
  · cases h
  · cases hc : createTemporary tree path with
    | error cause =>
      simp only [hc, Prod.mk.injEq] at h
      exact h.2.symm
    | ok made =>
      cases hp : replaceablePlace tree path with
      | ok place => simp [hc, hp] at h
      | error cause =>
        simp only [hc, hp, Prod.mk.injEq] at h
        exact h.2.symm

/-! ## Writes that succeed -/

section
variable {tree next after : FileTree} {path : Path} {content : List UInt8} {outcome : Outcome}

/-- The one entry that a path names is set to a content, with the mode of the file that the path led
to before. The process owns it, whoever owned that file. The entry lies in the directory of the
path's text, under the last component of the path. -/
structure Replaced (tree : FileTree) (path : Path) (content : List UInt8) (name : Name)
    (directory : Place) (after : FileTree) : Prop where
  entryPlace : tree.entryPlace path = .ok (name :: directory)
  noSlash : path.bytes.getLast? ≠ some slash
  parent : tree.resolveDirectory path.directory = .ok directory
  last_component : path.components.getLast? = some (.named name.bytes)
  eq_put : after = tree.put (name :: directory) (.file content (modeFor tree path) .owner)

/-- What a write that succeeds did. -/
theorem write_cases (h : write tree path content = (.ok outcome, after)) :
    (outcome = .unchanged ∧ tree.fileContent path = .ok content ∧ after = tree) ∨
      (outcome = .written ∧ ∃ name directory, Replaced tree path content name directory after) := by
  rw [write, replace_eq] at h
  split at h
  · rename_i hr
    cases h
    exact Or.inl ⟨rfl, toOption_eq_some_iff.mp hr, rfl⟩
  · cases hc : createTemporary tree path with
    | error cause => simp [hc] at h
    | ok made =>
      cases hp : replaceablePlace tree path with
      | error cause => simp [hc, hp] at h
      | ok place =>
        simp only [hc, hp, Prod.mk.injEq, Except.ok.injEq] at h
        obtain ⟨rfl, rfl⟩ := h
        obtain ⟨temporary, created⟩ := made
        obtain ⟨-, directory, -, hd, -, -⟩ := createTemporary_cases hc
        obtain ⟨he, hs⟩ := replaceablePlace_cases hp
        obtain ⟨hf, above, name, parent, hg, hw, rfl⟩ := FileTree.exists_name_of_entryPlace he hs
        have hv := FileTree.pathFault_of_walkPath (FileTree.resolveDirectory_eq_ok_iff.mp hd).1
        obtain rfl : directory = parent := by
          have hi := (FileTree.parentPlace_eq_ok_iff hg hf hv directory).mpr hd
          rw [hw] at hi
          exact (Except.ok.inj hi).symm
        exact Or.inr ⟨rfl, name, directory, {
          entryPlace := he
          noSlash := hs
          parent := hd
          last_component := Path.getLast?_components hg
          eq_put := rfl }⟩

namespace Replaced
variable {name : Name} {directory : Place} {other : List UInt8}

theorem lookup (h : Replaced tree path content name directory after) (place : Place) :
    after.lookup place = if place = name :: directory then
      some (.file content (modeFor tree path) .owner) else tree.lookup place := by
  rw [h.eq_put, FileTree.lookup_put]

theorem lookup_self (h : Replaced tree path content name directory after) :
    after.lookup (name :: directory) = some (.file content (modeFor tree path) .owner) := by
  rw [h.lookup, if_pos rfl]

/-! The entry is found again as long as the directory of the path is the one it was. -/

theorem entryPlace_again (h : Replaced tree path content name directory after)
    (hd : after.resolveDirectory path.directory = tree.resolveDirectory path.directory) :
    after.entryPlace path = .ok (name :: directory) :=
  FileTree.entryPlace_eq_of_directory h.entryPlace h.noSlash (hd.trans h.parent)

theorem leadsToFile (h : Replaced tree path content name directory after)
    (hd : after.resolveDirectory path.directory = tree.resolveDirectory path.directory) :
    after.LeadsToFile path (name :: directory) content (modeFor tree path) .owner := by
  refine ⟨?_, h.lookup_self⟩
  exact FileTree.resolve_eq_of_entryPlace (h.entryPlace_again hd) h.noSlash h.lookup_self
    fun target e => nomatch e

theorem mayRead (h : Replaced tree path content name directory after) (mode : Nat)
    (standing : Standing) : after.mayRead mode standing = tree.mayRead mode standing := by
  rw [h.eq_put, FileTree.mayRead_put]

/-- The entry reads as its content if its mode lets the owner read. -/
theorem fileContent (h : Replaced tree path content name directory after)
    (hd : after.resolveDirectory path.directory = tree.resolveDirectory path.directory) :
    after.fileContent path = if tree.mayRead (modeFor tree path) .owner then .ok content
      else .error .permissionDenied := by
  rw [(h.leadsToFile hd).fileContent, h.mayRead]

theorem modeFor_again (h : Replaced tree path content name directory after)
    (hd : after.resolveDirectory path.directory = tree.resolveDirectory path.directory) :
    modeFor after path = modeFor tree path := by
  obtain ⟨hr, hl⟩ := h.leadsToFile hd
  rw [modeFor, hr]
  simp only [hl]

/-- Two replacements are one, with the later content and the mode from before both. -/
theorem trans {second : Name} {parent : Place} (h : Replaced tree path content name directory next)
    (hd : next.resolveDirectory path.directory = tree.resolveDirectory path.directory)
    (ho : Replaced next path other second parent after) :
    Replaced tree path other name directory after where
  entryPlace := h.entryPlace
  noSlash := h.noSlash
  parent := h.parent
  last_component := h.last_component
  eq_put := by
    have hp : second :: parent = name :: directory :=
      Except.ok.inj (ho.entryPlace.symm.trans (h.entryPlace_again hd))
    rw [ho.eq_put, hp, h.modeFor_again hd, h.eq_put, FileTree.put_put]

end Replaced

theorem write_eq_unchanged_iff :
    (write tree path content).1 = .ok .unchanged ↔ tree.fileContent path = .ok content := by
  rw [write]
  split
  · rename_i h
    exact iff_of_true rfl (toOption_eq_some_iff.mp h)
  · rename_i h
    refine iff_of_false (fun he => ?_) fun hf => h (toOption_eq_some_iff.mpr hf)
    split at he <;> cases he

/-! ## The same content written again -/

/-- A write that does not find its content replaces what is there, or fails to. -/
theorem write_of_ne (h : tree.fileContent path ≠ .ok content) :
    (write tree path content).1 = .ok .written ∨
      ∃ cause, (write tree path content).1 = .error (.unwritableArtifact path cause) := by
  rw [write, if_neg fun hf => h (toOption_eq_some_iff.mp hf)]
  split
  · exact .inl rfl
  · exact .inr ⟨_, rfl⟩

/-- What was written is found there if the process may read it. -/
theorem fileContent_of_write (h : write tree path content = (.ok outcome, after))
    (hd : after.resolveDirectory path.directory = tree.resolveDirectory path.directory) :
    after.fileContent path = .ok content ↔ after.Readable path := by
  obtain ⟨-, hf, rfl⟩ | ⟨-, name, directory, hr⟩ := write_cases h
  · exact iff_of_true hf (FileTree.readable_iff.mpr ⟨content, hf⟩)
  · have hl := hr.leadsToFile hd
    rw [hl.readable_iff, hl.fileContent]
    split <;> simp_all

/-- The process may read what it wrote unless the mode that was kept denies this to the owner. -/
theorem readable_of_write (h : write tree path content = (.ok outcome, after))
    (hd : after.resolveDirectory path.directory = tree.resolveDirectory path.directory) :
    after.Readable path ↔
      outcome = .unchanged ∨ tree.mayRead (modeFor tree path) .owner = true := by
  obtain ⟨rfl, hf, rfl⟩ | ⟨rfl, name, directory, hr⟩ := write_cases h
  · exact iff_of_true (FileTree.readable_iff.mpr ⟨content, hf⟩) (.inl rfl)
  · rw [(hr.leadsToFile hd).readable_iff, hr.mayRead]
    simp only [reduceCtorEq, false_or]

/-- The same content changes nothing, whether it is found or takes its own place. -/
theorem write_again (h : write tree path content = (.ok outcome, after))
    (hd : after.resolveDirectory path.directory = tree.resolveDirectory path.directory) :
    (write after path content).2 = after := by
  obtain ⟨-, hf, rfl⟩ | ⟨-, name, directory, hr⟩ := write_cases h
  · rw [write, if_pos (toOption_eq_some_iff.mpr hf)]
  · cases hw : write after path content with
    | mk result later =>
      cases result with
      | error failure => exact write_error hw
      | ok second =>
        obtain ⟨-, -, ha⟩ | ⟨-, other, parent, ho⟩ := write_cases hw
        · exact ha
        · exact (hr.trans hd ho).eq_put.trans hr.eq_put.symm

end

end HandlerRegistry.Artifact
