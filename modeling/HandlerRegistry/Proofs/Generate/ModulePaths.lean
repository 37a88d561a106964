import HandlerRegistry.Proofs.Artifact.Declarations
import HandlerRegistry.Proofs.Artifact.Refusals
import HandlerRegistry.Proofs.Discovery.Denotes
import HandlerRegistry.Proofs.FileTree.Relative
import HandlerRegistry.Proofs.Generate.BuiltTable
import Mathlib.Data.List.Forall2

/-! # Where the paths of a generated module lead

A run looks for module roots from the working directory, while the module that it writes is read in
the directory of the artifact. The paths in the module lead to the module roots if the handler
directory is given as an absolute path, or if the artifact lies in the working directory; and as long
as the path of the handler directory is a text (`module_paths_lead_to_roots`). -/

namespace HandlerRegistry
set_option autoImplicit false

open Artifact.RustModule (modFile libFile moduleRoot isRoot_of_moduleRoot modules? shownRoot
  DeclaredAs)

/-! ## Module roots below the handler directory -/

section
variable {tree : FileTree} {directory root : Path} {source : HandlerSource}

theorem path_of_mem_discover {handlers : List HandlerSource}
    (h : discover tree directory = .ok handlers) (hm : source ∈ handlers) :
    ∃ name : Name, source.path = directory.join name ∧
      ∃ text, name.bytes = Utf8.encode text := by
  obtain ⟨place, -, -, -, hp⟩ := discover_ok h
  obtain ⟨name, -, hn⟩ := List.mem_filterMap.mp (hp.mem_iff.mp hm)
  obtain ⟨hi, hs⟩ := Discovery.sourceOf?_eq_some_iff.mp hn
  obtain ⟨text, ht, -⟩ := (Discovery.identify_eq_some_iff.mp hi).exists_text
  exact ⟨name, hs, text, ht⟩

theorem moduleRoot_cases (h : moduleRoot tree source = .ok root) :
    root = source.path ∨ ∃ file : Name, root = source.path.join file ∧
      ∃ text, file.bytes = Utf8.encode text := by
  cases isRoot_of_moduleRoot h with
  | entry => exact .inl rfl
  | first => exact .inr ⟨modFile, rfl, "mod.rs", rfl⟩
  | second => exact .inr ⟨libFile, rfl, "lib.rs", rfl⟩

/-- A module root is a text, or absolute, if the handler directory is. -/
theorem moduleRoot_below {name : Name} (hs : source.path = directory.join name)
    (ht : ∃ text, name.bytes = Utf8.encode text) (h : moduleRoot tree source = .ok root) :
    (directory.IsText → root.IsText) ∧
      (directory.bytes ≠ [] → root.isAbsolute = directory.isAbsolute) := by
  have hb := fun hne : directory.bytes ≠ [] => Path.join_bytes_ne_nil hne name
  obtain rfl | ⟨file, rfl, hf⟩ := moduleRoot_cases h
  · rw [hs]
    exact ⟨fun hd => hd.join ht, fun hne => Path.isAbsolute_join hne name⟩
  · rw [hs]
    refine ⟨fun hd => (hd.join ht).join hf, fun hne => ?_⟩
    rw [Path.isAbsolute_join (hb hne), Path.isAbsolute_join hne]

end

/-! ## The directory of the artifact -/

theorem exists_artifact_directory {config : Config} {tree after : FileTree} {content : List UInt8}
    {outcome : Artifact.Outcome}
    (h : Artifact.write tree config.output content = (.ok outcome, after)) :
    ∃ directory, tree.parentPlace config.output = .ok directory := by
  obtain ⟨-, hf, -⟩ | ⟨-, name, directory, hr⟩ := Artifact.write_cases h
  · obtain ⟨place, mode, standing, hl, -⟩ := FileTree.fileContent_eq_ok_iff.mp hf
    exact FileTree.exists_parentPlace hl.1
  · exact FileTree.exists_parentPlace_of_entryPlace hr.entryPlace

/-! ## From the module to its roots -/

theorem exists_modules {config : Config} {tree : FileTree} {report : Report}
    (kind : config.artifactKind = .rustModule) (h : (generate config tree).1 = .ok report) :
    ∃ text modules, LeavesText config tree report text ∧ modules? text = some modules ∧
      DeclaredAs tree report.handlers modules := by
  obtain ⟨text, run⟩ := generate_ok h
  have ht := run.rendered
  rw [run.kind, kind] at ht
  obtain ⟨modules, hm, hr, -⟩ := Artifact.RustModule.exists_readsAs ht
  exact ⟨text, modules, written_text run.wrote, hr.declared, hm⟩

theorem shownRoot_ok {tree : FileTree} {source : HandlerSource} {shown : String}
    (h : shownRoot tree source = .ok shown) :
    ∃ root, moduleRoot tree source = .ok root ∧ shown = root.display := by
  rw [shownRoot] at h
  cases hr : moduleRoot tree source with
  | error failure =>
    rw [hr] at h
    cases h
  | ok root =>
    rw [hr] at h
    cases h
    exact ⟨root, rfl, rfl⟩

/-- Every module of a written artifact is declared with the module root of its handler. The path is
shown, so it is that of the module root itself if the handler directory is a text. Read in the
directory of the artifact, it then leads to where the run found the module root, at any later time,
provided that the handler directory is absolute or the artifact lies in the working directory. -/
theorem module_paths_lead_to_roots (config : Config) (tree : FileTree) (report : Report)
    (kind : config.artifactKind = .rustModule) (h : (generate config tree).1 = .ok report) :
    ∃ text modules directory, LeavesText config tree report text ∧
      modules? text = some modules ∧ tree.parentPlace config.output = .ok directory ∧
      List.Forall₂ (fun source module => module.2 = source.id ∧
        ∃ root, moduleRoot tree source = .ok root ∧ module.1 = root.display ∧
          (config.inputDir.IsText → Path.ofText module.1 = root ∧
            (config.inputDir.isAbsolute = true ∨ directory = tree.home →
              ∀ later : FileTree, later.home = tree.home →
                later.resolveFrom directory (Path.ofText module.1) = later.resolve root)))
        report.handlers modules := by
  obtain ⟨_, run⟩ := generate_ok h
  have hd := run.found
  obtain ⟨directory, hp⟩ := exists_artifact_directory run.wrote
  obtain ⟨text, modules, hl, hm, declared⟩ := exists_modules kind h
  have hb : config.inputDir.bytes ≠ [] := by
    obtain ⟨place, hr, -⟩ := discover_ok hd
    exact FileTree.bytes_ne_nil
      (FileTree.pathFault_of_walkPath (FileTree.resolveDirectory_eq_ok_iff.mp hr).1)
  refine ⟨text, modules, directory, hl, hm, hp, ?_⟩
  refine ((List.forall₂_and_left _ _).mpr
    ⟨fun _ => path_of_mem_discover hd, declared⟩).imp ?_
  rintro source module ⟨⟨name, hs, hn⟩, hshown, hid⟩
  obtain ⟨root, hr, hdisplay⟩ := shownRoot_ok hshown
  obtain ⟨htext, habsolute⟩ := moduleRoot_below hs hn hr
  refine ⟨hid, root, hr, hdisplay, fun hi => ?_⟩
  have he : Path.ofText module.1 = root := by rw [hdisplay, (htext hi).ofText_display]
  refine ⟨he, ?_⟩
  rintro (ha | rfl) later hh
  · rw [he]
    exact FileTree.resolveFrom_absolute ((habsolute hb).trans ha) directory
  · rw [he, ← hh]
    exact FileTree.resolveFrom_home later root

/-! ### An artifact in a directory of its own -/

namespace Sample

def generated : Name := ⟨Utf8.encode "gen", by decide⟩
def gopher : Name := ⟨Utf8.encode "gopher.rs", by decide⟩

/-- A working directory with one handler, and a directory for the artifact. -/
def apart : FileTree where
  entries := [([project], .directory), ([protocols, project], .directory),
    ([gopher, protocols, project], .file [] 0o644 .owner), ([generated, project], .directory)]
  home := [project]
  privileged := false
  distinct := by
    simp only [List.map_cons, List.map_nil]
    decide

/-- The Rust module of a handler directory, written to the directory for it. -/
def moduleOf (inputDir : String) : Config where
  inputDir := Path.ofText inputDir
  output := Path.ofText "gen/registry.rs"
  kind := none
  capacity := .fromCount

def moduleReport (path : String) : Report where
  handlers := [⟨⟨"gopher", by decide⟩, Path.ofText path⟩]
  kind := .rustModule
  capacity := 1
  output := Path.ofText "gen/registry.rs"
  outcome := .written

end Sample

theorem absolute_module_path_leads_to_root :
    (generate (Sample.moduleOf "/project/protocols") Sample.apart).1 =
        .ok (Sample.moduleReport "/project/protocols/gopher.rs") ∧
      ∃ text modules,
        LeavesText (Sample.moduleOf "/project/protocols") Sample.apart
          (Sample.moduleReport "/project/protocols/gopher.rs") text ∧
        modules? text = some modules ∧
        modules.map Prod.fst = ["/project/protocols/gopher.rs"] ∧
        (generate (Sample.moduleOf "/project/protocols") Sample.apart).2.resolveFrom
            [Sample.generated, Sample.project] (Path.ofText "/project/protocols/gopher.rs") =
          .ok [Sample.gopher, Sample.protocols, Sample.project] := by
  have hg : (generate (Sample.moduleOf "/project/protocols") Sample.apart).1 =
      .ok (Sample.moduleReport "/project/protocols/gopher.rs") := by decide +kernel
  refine ⟨hg, ?_⟩
  obtain ⟨text, modules, directory, hl, hm, hp, hall⟩ :=
    module_paths_lead_to_roots _ _ _ (by decide +kernel) hg
  obtain ⟨module, rest, ⟨-, root, hr, hd, hi⟩, hn, rfl⟩ := List.forall₂_cons_left_iff.mp hall
  obtain rfl := List.forall₂_nil_left_iff.mp hn
  have hroot : moduleRoot Sample.apart
      ⟨⟨"gopher", by decide⟩, Path.ofText "/project/protocols/gopher.rs"⟩ =
        .ok (Path.ofText "/project/protocols/gopher.rs") := by decide +kernel
  rw [hroot] at hr
  obtain rfl := Except.ok.inj hr
  have hs : (Path.ofText "/project/protocols/gopher.rs").display = "/project/protocols/gopher.rs" :=
    Utf8.lossy_encode _
  have hplace : Sample.apart.parentPlace (Sample.moduleOf "/project/protocols").output =
      .ok [Sample.generated, Sample.project] := by decide +kernel
  rw [hplace] at hp
  obtain rfl := Except.ok.inj hp
  obtain ⟨-, hlead⟩ := hi ⟨"/project/protocols", rfl⟩
  have he := hlead (.inl (by decide +kernel))
    (generate (Sample.moduleOf "/project/protocols") Sample.apart).2 (by decide +kernel)
  rw [hd, hs] at he
  refine ⟨text, _, hl, hm, by rw [List.map_singleton, hd, hs], he.trans ?_⟩
  decide +kernel

theorem relative_module_path_leads_astray :
    ¬ ∀ (config : Config) (tree : FileTree) (report : Report) (text : String)
      (modules : List (String × Identifier)) (directory : Place),
      config.artifactKind = .rustModule → (generate config tree).1 = .ok report →
        LeavesText config tree report text → modules? text = some modules →
          tree.parentPlace config.output = .ok directory →
            List.Forall₂ (fun source module => ∃ root, moduleRoot tree source = .ok root ∧
              (generate config tree).2.resolveFrom directory (Path.ofText module.1) =
                (generate config tree).2.resolve root) report.handlers modules := by
  intro h
  have hk : (Sample.moduleOf "protocols").artifactKind = .rustModule := by decide +kernel
  have hg : (generate (Sample.moduleOf "protocols") Sample.apart).1 =
      .ok (Sample.moduleReport "protocols/gopher.rs") := by decide +kernel
  have hp : Sample.apart.parentPlace (Sample.moduleOf "protocols").output =
      .ok [Sample.generated, Sample.project] := by decide +kernel
  obtain ⟨text, modules, hl, hm, declared⟩ := exists_modules hk hg
  have hall := h _ _ _ text modules _ hk hg hl hm hp
  obtain ⟨module, rest, ⟨root, hr, he⟩, -, rfl⟩ := List.forall₂_cons_left_iff.mp hall
  obtain ⟨shown, others, ⟨hs, -⟩, -, hc⟩ := List.forall₂_cons_left_iff.mp declared
  obtain ⟨rfl, rfl⟩ := List.cons.inj hc
  have hroot : moduleRoot Sample.apart ⟨⟨"gopher", by decide⟩, Path.ofText "protocols/gopher.rs"⟩ =
      .ok (Path.ofText "protocols/gopher.rs") := by decide +kernel
  rw [hroot] at hr
  obtain rfl := Except.ok.inj hr
  obtain ⟨root, hr, hd⟩ := shownRoot_ok hs
  rw [hroot] at hr
  obtain rfl := Except.ok.inj hr
  have ht : (Path.ofText "protocols/gopher.rs").display = "protocols/gopher.rs" :=
    Utf8.lossy_encode _
  -- There is no directory for the handlers beside the artifact.
  have hfrom : (generate (Sample.moduleOf "protocols") Sample.apart).2.resolveFrom
      [Sample.generated, Sample.project] (Path.ofText "protocols/gopher.rs") = .error .notFound := by
    decide +kernel
  have hhome : (generate (Sample.moduleOf "protocols") Sample.apart).2.resolve
      (Path.ofText "protocols/gopher.rs") =
        .ok [Sample.gopher, Sample.protocols, Sample.project] := by
    decide +kernel
  rw [hd, ht, hfrom, hhome] at he
  cases he

end HandlerRegistry
