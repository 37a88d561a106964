import HandlerRegistry.Proofs.Generate.ModulePaths
import HandlerRegistry.Proofs.Text.Lines
import HandlerRegistry.Proofs.Traversal
import Mathlib.Data.List.DropRight
import Mathlib.Tactic.SplitIfs

/-! # What a build reads as its dependencies

A run inside a build names one path on each line that it prints. A path is shown as it is, so the
build reads the paths back only if each of them is a text that stays on its line: it holds no line
feed and does not end in white space (`dependencies?_join_iff`). The name of a file has to be an
identifier only up to its last dot. What follows the dot may break the line and have the build read
another directive (`line_feed_adds_directive`). -/

namespace HandlerRegistry
set_option autoImplicit false

namespace Build

/-! ## The lines of a build -/

/-- White space, which is not read at either end of a line. -/
def isSpace (c : Char) : Bool :=
  (0x9 ≤ c.toNat && c.toNat ≤ 0xD) || (0x2000 ≤ c.toNat && c.toNat ≤ 0x200A) ||
    [0x20, 0x85, 0xA0, 0x1680, 0x2028, 0x2029, 0x202F, 0x205F, 0x3000].contains c.toNat

def dependencyMark : List Char := "cargo:rerun-if-changed=".toList

/-- The path that a line declares as a dependency. -/
def dependency? (line : List Char) : Option Path :=
  (Text.stripStart dependencyMark ((line.dropWhile isSpace).rdropWhile isSpace)).map fun rest =>
    Path.ofText (String.ofList rest)

/-- The lines of a text that are ended by a line feed, and what follows the last one unless it is
nothing. -/
def endedLines (text : String) : List (List Char) :=
  if (Text.lines text).getLast? = some [] then (Text.lines text).dropLast else Text.lines text

/-- The paths that the lines of a text declare as dependencies, if every line declares one. -/
def dependencies? (text : String) : Option (List Path) := (endedLines text).mapM dependency?

end Build

/-- A path that can be named on a line: it is a text without line feeds that does not end in white
space. -/
structure Path.FitsLine (path : Path) : Prop where
  isText : path.IsText
  unbroken : '\n' ∉ path.display.toList
  unpadded : path.display.toList.getLast?.any Build.isSpace = false

namespace Build

/-! ## Reading one line -/

/-- A dependency without the line feed after it. -/
def dependencyLine (path : Path) : String := "cargo:rerun-if-changed=" ++ path.display

theorem dependency_eq (path : Path) : dependency path = dependencyLine path ++ "\n" := rfl

theorem toList_dependencyLine (path : Path) :
    (dependencyLine path).toList = dependencyMark ++ path.display.toList := String.toList_append

/-- White space is read off the end of the path only. -/
theorem trim_dependencyLine (path : Path) :
    ((dependencyLine path).toList.dropWhile isSpace).rdropWhile isSpace =
      dependencyMark ++ path.display.toList.rdropWhile isSpace := by
  have hm : dependencyMark = 'c' :: dependencyMark.tail := by decide
  have hl : dependencyMark = dependencyMark.dropLast ++ ['='] := by decide
  have hd : (dependencyLine path).toList.dropWhile isSpace = (dependencyLine path).toList := by
    rw [toList_dependencyLine, hm, List.cons_append]
    rfl
  rw [hd, toList_dependencyLine]
  generalize path.display.toList = shown
  induction shown using List.reverseRecOn with
  | nil =>
    rw [List.append_nil, List.rdropWhile_nil, List.append_nil, hl,
      List.rdropWhile_concat_neg _ _ _ (by decide)]
  | append_singleton before c ih =>
    rw [← List.append_assoc]
    by_cases hc : isSpace c = true
    · rw [List.rdropWhile_concat_pos _ _ _ hc, List.rdropWhile_concat_pos _ _ _ hc, ih]
    · rw [List.rdropWhile_concat_neg _ _ _ hc, List.rdropWhile_concat_neg _ _ _ hc,
        List.append_assoc]

theorem dependency?_dependencyLine (path : Path) :
    dependency? (dependencyLine path).toList =
      some (Path.ofText (String.ofList (path.display.toList.rdropWhile isSpace))) := by
  rw [dependency?, trim_dependencyLine, Text.stripStart_eq_some.mpr rfl, Option.map_some]

theorem rdropWhile_eq_self_iff {shown : List Char} :
    shown.rdropWhile isSpace = shown ↔ shown.getLast?.any isSpace = false := by
  rw [List.rdropWhile_eq_self_iff]
  by_cases hne : shown = []
  · rw [hne]
    exact ⟨fun _ => rfl, fun _ hn => absurd rfl hn⟩
  · rw [List.getLast?_eq_some_getLast hne, Option.any_some, ← Bool.not_eq_true]
    exact ⟨fun h => h hne, fun h _ => h⟩

theorem fitsLine_ofText_iff {text : String} : (Path.ofText text).FitsLine ↔
    '\n' ∉ text.toList ∧ text.toList.getLast?.any isSpace = false := by
  constructor
  · intro h
    rw [← Path.display_ofText text]
    exact ⟨h.unbroken, h.unpadded⟩
  · rintro ⟨hn, hs⟩
    rw [← Path.display_ofText text] at hn hs
    exact ⟨⟨text, rfl⟩, hn, hs⟩

theorem dependency?_eq_some_iff (path : Path) :
    dependency? (dependencyLine path).toList = some path ↔
      path.IsText ∧ path.display.toList.getLast?.any isSpace = false := by
  rw [dependency?_dependencyLine, Option.some.injEq, ← rdropWhile_eq_self_iff]
  generalize hs : path.display.toList.rdropWhile isSpace = shown
  constructor
  · rintro rfl
    refine ⟨⟨String.ofList shown, rfl⟩, ?_⟩
    rw [Path.display_ofText, String.toList_ofList]
  · rintro ⟨ht, rfl⟩
    rw [String.ofList_toList, ht.ofText_display]

/-! ## Reading every line -/

theorem lines_join_dependency (paths : List Path) :
    Text.lines (String.join (paths.map dependency)) =
      paths.flatMap (fun path => Text.lines (dependencyLine path)) ++ [[]] := by
  induction paths with
  | nil => rfl
  | cons path paths ih =>
    rw [List.map_cons, String.join_cons, dependency_eq, String.append_assoc, Text.lines_append, ih,
      List.flatMap_cons, List.append_assoc]

theorem endedLines_join_dependency (paths : List Path) :
    endedLines (String.join (paths.map dependency)) =
      paths.flatMap fun path => Text.lines (dependencyLine path) := by
  rw [endedLines, lines_join_dependency, List.getLast?_concat, if_pos rfl, List.dropLast_concat]

theorem newline_not_mem_dependencyLine {path : Path} :
    '\n' ∉ (dependencyLine path).toList ↔ '\n' ∉ path.display.toList := by
  have hm : '\n' ∉ dependencyMark := by decide
  rw [toList_dependencyLine, List.mem_append, not_or]
  exact and_iff_right hm

/-- Lists of which none is empty are single items if they hold as many items as they are. -/
theorem singletons_of_length_flatMap {α β : Type} {f : α → List β} (hf : ∀ a, f a ≠ [])
    {l : List α} (h : (l.flatMap f).length = l.length) : ∀ a ∈ l, ∃ b, f a = [b] := by
  have hpos : ∀ a, 1 ≤ (f a).length := fun a => List.length_pos_iff.mpr (hf a)
  have hle : ∀ l : List α, l.length ≤ (l.flatMap f).length := by
    intro l
    induction l with
    | nil => exact Nat.zero_le _
    | cons a l ih =>
      rw [List.flatMap_cons, List.length_append, List.length_cons]
      have := hpos a
      omega
  induction l with
  | nil =>
    intro a ha
    cases ha
  | cons a l ih =>
    rw [List.flatMap_cons, List.length_append, List.length_cons] at h
    have ha := hpos a
    have hl := hle l
    exact List.forall_mem_cons.mpr ⟨List.length_eq_one_iff.mp (by omega), ih (by omega)⟩

/-- The lines that name paths declare these paths and nothing else exactly if each of them fits its
line: a path that breaks its line makes one line too many. -/
theorem dependencies?_join_iff (paths : List Path) :
    dependencies? (String.join (paths.map dependency)) = some paths ↔
      ∀ path ∈ paths, path.FitsLine := by
  rw [dependencies?, endedLines_join_dependency, mapM_eq_some_iff]
  have hu : (∀ path ∈ paths, '\n' ∉ path.display.toList) →
      (paths.flatMap fun path => Text.lines (dependencyLine path)) =
        paths.map fun path => (dependencyLine path).toList := by
    intro h
    rw [List.map_eq_flatMap]
    refine List.flatMap_congr fun path hp => ?_
    exact Text.lines_of_not_mem (newline_not_mem_dependencyLine.mpr (h path hp))
  constructor
  · intro h
    have hn : ∀ path ∈ paths, '\n' ∉ path.display.toList := by
      have hl := congrArg List.length h
      rw [List.length_map, List.length_map] at hl
      intro path hp
      obtain ⟨line, he⟩ :=
        singletons_of_length_flatMap (fun _ => List.splitOn_ne_nil _ _) hl path hp
      exact newline_not_mem_dependencyLine.mp (Text.lines_eq_singleton_iff.mp he).1
    rw [hu hn, List.map_map, List.map_inj_left] at h
    simp only [Function.comp_apply, dependency?_eq_some_iff] at h
    exact fun path hp => ⟨(h path hp).1, hn path hp, (h path hp).2⟩
  · intro h
    rw [hu fun path hp => (h path hp).unbroken, List.map_map, List.map_inj_left]
    simp only [Function.comp_apply, dependency?_eq_some_iff]
    exact fun path hp => ⟨(h path hp).isText, (h path hp).unpadded⟩

/-! ## A whole build -/

section
variable {inputDir output : Path} {tree : FileTree}

theorem run_error {failure : Failure} (h : (run inputDir output tree).result = .error failure) :
    (run inputDir output tree).printed = String.join ([inputDir].map dependency) := by
  rw [List.map_singleton, String.join_cons, String.join_nil, String.append_empty]
  rw [run] at h ⊢
  split
  · rfl
  · rename_i report after he
    rw [he] at h
    cases h

theorem run_ok {report : Report} (h : (run inputDir output tree).result = .ok report) :
    (run inputDir output tree).printed =
      String.join ((inputDir :: report.handlers.map HandlerSource.path).map dependency) := by
  rw [List.map_cons, List.map_map, String.join_cons]
  rw [run] at h ⊢
  split
  · rename_i failure after he
    rw [he] at h
    cases h
  · rename_i other after he
    rw [he] at h
    cases h
    rfl

theorem run_effect : (run inputDir output tree).result = (generate (config inputDir output) tree).1 ∧
    (run inputDir output tree).tree = (generate (config inputDir output) tree).2 := by
  rw [run]
  split
  · rename_i he
    rw [he]
    exact ⟨rfl, rfl⟩
  · rename_i he
    rw [he]
    exact ⟨rfl, rfl⟩

end

end Build

/-- A run inside a build is a run for a Rust module with the slots that it needs. What it prints
declares the handler directory, and after a success also the handlers in their order; the build reads
exactly these paths if and only if each of them fits its line. -/
theorem build_dependencies (inputDir output : Path) (tree : FileTree) :
    (Build.run inputDir output tree).result = (generate (Build.config inputDir output) tree).1 ∧
      (Build.run inputDir output tree).tree = (generate (Build.config inputDir output) tree).2 ∧
      (∀ failure, (Build.run inputDir output tree).result = .error failure →
        (Build.dependencies? (Build.run inputDir output tree).printed = some [inputDir] ↔
          inputDir.FitsLine)) ∧
      ∀ report, (Build.run inputDir output tree).result = .ok report →
        report.kind = .rustModule ∧ report.capacity = max report.handlers.length 1 ∧
          discover tree inputDir = .ok report.handlers ∧ Discovery.Sorted report.handlers ∧
          (Build.dependencies? (Build.run inputDir output tree).printed =
              some (inputDir :: report.handlers.map HandlerSource.path) ↔
            inputDir.FitsLine ∧ ∀ source ∈ report.handlers, source.path.FitsLine) := by
  obtain ⟨hresult, htree⟩ := @Build.run_effect inputDir output tree
  refine ⟨hresult, htree, fun failure h => ?_, fun report h => ?_⟩
  · rw [Build.run_error h, Build.dependencies?_join_iff, List.forall_mem_singleton]
  · obtain ⟨_, run⟩ := generate_ok (hresult ▸ h)
    obtain ⟨-, -, -, sorted, -⟩ := discover_ok run.found
    refine ⟨run.kind, run.capacity, run.found, sorted, ?_⟩
    rw [Build.run_ok h, Build.dependencies?_join_iff, List.forall_mem_cons, List.forall_mem_map]

/-! ### A file whose name breaks the line -/

namespace Sample

/-- The name of a file of the handler `gopher`, with a directive on a second line. -/
def broken : Name := ⟨Utf8.encode "gopher.rs\ncargo:rustc-cfg=x", by decide⟩

/-- A working directory with one handler, in the file of that name. -/
def breaking : FileTree where
  entries := [([project], .directory), ([protocols, project], .directory),
    ([broken, protocols, project], .file [] 0o644 .owner)]
  home := [project]
  privileged := false
  distinct := by
    simp only [List.map_cons, List.map_nil]
    decide

/-- The report of a build of the one handler, in the file of a given path. -/
def builtReport (path : String) : Report :=
  { moduleReport path with output := Path.ofText "registry.rs" }

end Sample

theorem build_reads_dependencies :
    (Build.run (Path.ofText "protocols") (Path.ofText "registry.rs") Sample.apart).result =
        .ok (Sample.builtReport "protocols/gopher.rs") ∧
      Build.dependencies?
          (Build.run (Path.ofText "protocols") (Path.ofText "registry.rs") Sample.apart).printed =
        some [Path.ofText "protocols", Path.ofText "protocols/gopher.rs"] := by
  have hr : (Build.run (Path.ofText "protocols") (Path.ofText "registry.rs") Sample.apart).result =
      .ok (Sample.builtReport "protocols/gopher.rs") := by decide +kernel
  refine ⟨hr, ?_⟩
  obtain ⟨-, -, -, hok⟩ :=
    build_dependencies (Path.ofText "protocols") (Path.ofText "registry.rs") Sample.apart
  obtain ⟨-, -, -, -, hiff⟩ := hok _ hr
  refine hiff.mpr ⟨Build.fitsLine_ofText_iff.mpr ⟨by decide, by decide⟩, fun source hm => ?_⟩
  obtain rfl := List.mem_singleton.mp hm
  exact Build.fitsLine_ofText_iff.mpr ⟨by decide, by decide⟩

theorem line_feed_adds_directive :
    ¬ ∀ (inputDir output : Path) (tree : FileTree) (report : Report),
      (Build.run inputDir output tree).result = .ok report →
        Build.dependencies? (Build.run inputDir output tree).printed =
          some (inputDir :: report.handlers.map HandlerSource.path) := by
  intro h
  have hr : (Build.run (Path.ofText "protocols") (Path.ofText "registry.rs")
      Sample.breaking).result =
        .ok (Sample.builtReport "protocols/gopher.rs\ncargo:rustc-cfg=x") := by decide +kernel
  have hd := h _ _ _ _ hr
  rw [Build.run_ok hr, Build.dependencies?_join_iff] at hd
  have hf := hd _ (List.mem_cons_of_mem _ (List.mem_singleton_self _))
  exact (Build.fitsLine_ofText_iff.mp hf).1 (by decide)

end HandlerRegistry
