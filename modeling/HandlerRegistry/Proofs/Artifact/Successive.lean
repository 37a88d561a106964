import HandlerRegistry.Proofs.Artifact.Replacement
import Mathlib.Control.Monad.Basic

/-! # Contents written one after another

The mode of an artifact is read through links, but a link is what gets replaced. The first write
that replaces anything takes the mode over to the new entry; since the path leads to that entry from
then on, every further write finds the mode there (`Replaced.trans`). Writes that find their content
leave all this alone, so that any number of writes comes to one entry set or nothing
(`writeAll_cases`). The mode that is kept also decides whether the process can read what it wrote
(`WritesLeave`). -/

namespace HandlerRegistry.Artifact
set_option autoImplicit false

variable {tree : FileTree} {path : Path} {content : List UInt8}

/-! ## Several writes -/

/-- Contents written to a path one after another: what became of each, and the tree at the end. -/
def writeAll (tree : FileTree) (path : Path) :
    List (List UInt8) → List (Except Failure Outcome) × FileTree
  | [] => ([], tree)
  | content :: rest =>
    let first := write tree path content
    let others := writeAll first.2 path rest
    (first.1 :: others.1, others.2)

theorem getElem?_writeAll (tree : FileTree) (path : Path) (contents : List (List UInt8))
    (k : Nat) : (writeAll tree path contents).1[k]? = contents[k]?.map fun content =>
      (write (writeAll tree path (contents.take k)).2 path content).1 := by
  induction contents generalizing tree k with
  | nil => simp [writeAll]
  | cons content rest ih =>
    cases k with
    | zero => rfl
    | succ k =>
      rw [writeAll, List.getElem?_cons_succ, List.getElem?_cons_succ, List.take_succ_cons, ih]
      rfl

/-- All writes succeed, and the directory of the path is the same before and after each. -/
structure Steady (tree : FileTree) (path : Path) (contents : List (List UInt8)) : Prop where
  succeeds : ∀ answer ∈ (writeAll tree path contents).1, ∃ outcome, answer = .ok outcome
  parent : ∀ k ≤ contents.length,
    (writeAll tree path (contents.take k)).2.resolveDirectory path.directory =
      tree.resolveDirectory path.directory

theorem Steady.of_cons {rest : List (List UInt8)} (h : Steady tree path (content :: rest)) :
    ∃ outcome next, write tree path content = (.ok outcome, next) ∧
      next.resolveDirectory path.directory = tree.resolveDirectory path.directory ∧
      Steady next path rest := by
  obtain ⟨hs, hr⟩ := List.forall_mem_cons.mp h.succeeds
  obtain ⟨outcome, ho⟩ := hs
  have hd : (write tree path content).2.resolveDirectory path.directory =
      tree.resolveDirectory path.directory :=
    h.parent 1 (Nat.succ_le_succ (Nat.zero_le _))
  refine ⟨outcome, _, Prod.ext ho rfl, hd, hr, fun k hk => ?_⟩
  exact (h.parent (k + 1) (Nat.succ_le_succ hk)).trans hd.symm

/-- Any number of writes: either all find their content and nothing changes, or the entry is set to
the last content. -/
theorem writeAll_cases {contents : List (List UInt8)} (h : Steady tree path contents) :
    ((∀ answer ∈ (writeAll tree path contents).1, answer = .ok .unchanged) ∧
        (writeAll tree path contents).2 = tree ∧
        ∀ last ∈ contents.getLast?, tree.fileContent path = .ok last) ∨
      .ok .written ∈ (writeAll tree path contents).1 ∧
        ∃ last ∈ contents.getLast?, ∃ name directory,
          Replaced tree path last name directory (writeAll tree path contents).2 := by
  induction contents generalizing tree with
  | nil => exact .inl ⟨fun answer hm => (nomatch hm), rfl, fun last hm => (nomatch hm)⟩
  | cons content rest ih =>
    obtain ⟨outcome, next, hw, hd, hs⟩ := h.of_cons
    simp only [writeAll, hw, List.getLast?_cons, Option.mem_some_iff, List.forall_mem_cons]
    obtain ⟨rfl, hf, rfl⟩ | ⟨rfl, name, directory, hn⟩ := write_cases hw
    · obtain ⟨hu, ha, hl⟩ | ⟨hwr, last, hm, name, directory, hr⟩ := ih hs
      · refine .inl ⟨⟨rfl, hu⟩, ha, ?_⟩
        rintro last rfl
        cases hg : rest.getLast? with
        | none => exact hf
        | some last => exact hl last hg
      · exact .inr ⟨List.mem_cons_of_mem _ hwr, last, by rw [hm]; rfl, name, directory, hr⟩
    · refine .inr ⟨List.mem_cons_self, ?_⟩
      obtain ⟨-, ha, hl⟩ | ⟨-, last, hm, second, parent, hr⟩ := ih hs
      -- The other writes find what this one has left.
      · refine ⟨content, ?_, name, directory, ?_⟩
        · cases hg : rest.getLast? with
          | none => rfl
          | some last =>
            obtain ⟨place, mode, standing, hfile, -⟩ :=
              FileTree.fileContent_eq_ok_iff.mp (hl last hg)
            exact ((hn.leadsToFile hd).unique hfile).2.1
        · rw [ha]
          exact hn
      · exact ⟨last, by rw [hm]; rfl, name, directory, hn.trans hd hr⟩

/-! ## What writes leave -/

/-- The entry that a path names after writes to it, some of which replaced something. -/
structure EntryLeft (tree : FileTree) (path : Path) (content : List UInt8) (name : Name)
    (directory : Place) (mode : Nat) (after : FileTree) : Prop where
  entryPlace : tree.entryPlace path = .ok (name :: directory)
  entryPlace_after : after.entryPlace path = .ok (name :: directory)
  /-- The entry is a regular file. -/
  file : after.lookup (name :: directory) = some (.file content mode .owner)
  /-- Its mode is that of the file that the path led to. -/
  mode_kept : ∀ place found old standing, tree.LeadsToFile path place found old standing →
    mode = old
  mode_new : tree.isFile path = false → mode = 0o644
  frame : ∀ place, place ≠ name :: directory → after.lookup place = tree.lookup place
  /-- The file that a link at the path led to keeps its content and its mode. -/
  target_kept : ∀ target place found old standing,
    tree.lookup (name :: directory) = some (.link target) →
      tree.LeadsToFile path place found old standing →
        after.lookup place = some (.file found old standing)

/-- What successful writes to one path leave. -/
structure WritesLeave (tree : FileTree) (path : Path) (contents : List (List UInt8))
    (last : List UInt8) : Prop where
  /-- A write finds nothing to do exactly if reading the path gave its content. -/
  unchanged_iff : ∀ k content, contents[k]? = some content →
    ((writeAll tree path contents).1[k]? = some (.ok .unchanged) ↔
      (writeAll tree path (contents.take k)).2.fileContent path = .ok content)
  /-- At the end the path leads to a regular file that holds the last content. -/
  holds : ∃ place mode standing,
    (writeAll tree path contents).2.LeadsToFile path place last mode standing
  /-- It reads as that content if nothing was replaced or the mode lets the owner read. -/
  reads : (.ok .written ∈ (writeAll tree path contents).1 →
      tree.mayRead (modeFor tree path) .owner = true) →
    (writeAll tree path contents).2.fileContent path = .ok last
  /-- Reading it is refused if the mode that was kept denies this to the owner. -/
  refused : .ok .written ∈ (writeAll tree path contents).1 →
    tree.mayRead (modeFor tree path) .owner = false →
      (writeAll tree path contents).2.fileContent path = .error .permissionDenied
  /-- It is never refused to a privileged process, nor if the path led to no file at first. -/
  reads_always : tree.privileged = true ∨ tree.isFile path = false →
    (writeAll tree path contents).2.fileContent path = .ok last
  entry : .ok .written ∈ (writeAll tree path contents).1 → ∃ name directory mode,
    EntryLeft tree path last name directory mode (writeAll tree path contents).2

theorem Replaced.entryLeft {after : FileTree} {name : Name} {directory : Place}
    (h : Replaced tree path content name directory after)
    (hd : after.resolveDirectory path.directory = tree.resolveDirectory path.directory) :
    EntryLeft tree path content name directory (modeFor tree path) after where
  entryPlace := h.entryPlace
  entryPlace_after := h.entryPlace_again hd
  file := h.lookup_self
  mode_kept _ _ _ _ := modeFor_eq_of_leadsToFile
  mode_new := modeFor_eq_newMode
  frame place hp := by rw [h.lookup, if_neg hp]
  target_kept target place found old standing hlink hfile := by
    rw [h.lookup, if_neg, hfile.2]
    -- A link is no file, so the file lies elsewhere.
    rintro rfl
    cases hlink.symm.trans hfile.2

namespace Sample

def annex : Name := ⟨Utf8.encode "annex", by decide⟩
def entry : Name := ⟨Utf8.encode "table.h", by decide⟩
def shared : Name := ⟨Utf8.encode "shared.h", by decide⟩

/-- A link, and the file with the content 1 that it leads to. -/
def linked : FileTree where
  entries := [([annex], .directory), ([shared, annex], .file [1] 0o600 .owner),
    ([entry, annex], .link (Path.ofText "shared.h"))]
  home := [annex]
  privileged := false
  distinct := by
    simp only [List.map_cons, List.map_nil]
    decide

end Sample

/-- A file that its owner may not read: what it holds already is written, and takes its place. -/
example : writeAll (Sample.linked.put [Sample.entry, Sample.annex] (.file [1] 0o200 .owner))
      (Path.ofText "table.h") [[1], [1]] =
    ([.ok .written, .ok .written],
      Sample.linked.put [Sample.entry, Sample.annex] (.file [1] 0o200 .owner)) := by
  decide +kernel

end HandlerRegistry.Artifact
