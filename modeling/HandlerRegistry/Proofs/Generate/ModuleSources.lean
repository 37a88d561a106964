import HandlerRegistry.Proofs.Artifact.Refusals
import HandlerRegistry.Proofs.FileTree.Files
import HandlerRegistry.Proofs.Generate.ModulePaths

/-! # The source files of declared modules

A run takes for a module root whatever is no directory, and in a directory the first of two names
under which anything exists. This is the source file of the handler, that is, a regular one, exactly
if the handler is no link that leads nowhere and no directory is met under one of the two names
(`module_roots_of_orderly_sources`). Otherwise it is none: a directory called like the first name is
declared although the second one is a source file (`directory_declared_as_module`). -/

namespace HandlerRegistry
set_option autoImplicit false

namespace Artifact.RustModule
variable {tree : FileTree} {source : HandlerSource} {root : Path}

/-! ## Module roots and source files -/

/-- The source file of a handler: the entry itself, or else `mod.rs` or `lib.rs` in it, each only if
it is a regular file. -/
def sourceFile? (tree : FileTree) (source : HandlerSource) : Option Path :=
  if tree.isDirectory source.path then
    if tree.isFile (source.path.join modFile) then some (source.path.join modFile)
    else if tree.isFile (source.path.join libFile) then some (source.path.join libFile)
    else none
  else if tree.isFile source.path then some source.path
  else none

/-- Where the source file is looked for there is one or nothing: a handler is no link that leads
nowhere, and in a directory no directory is met under the name of a file. -/
structure Orderly (tree : FileTree) (source : HandlerSource) : Prop where
  entry : tree.isDirectory source.path = false → tree.pathExists source.path = true
  first : tree.isDirectory source.path = true →
    tree.isDirectory (source.path.join modFile) = false
  second : tree.isDirectory source.path = true →
    tree.pathExists (source.path.join modFile) = false →
      tree.isDirectory (source.path.join libFile) = false

theorem isFile_of_sourceFile? (h : sourceFile? tree source = some root) :
    tree.isFile root = true := by
  rw [sourceFile?] at h
  split_ifs at h with hd hm hl hf
  · exact Option.some.inj h ▸ hm
  · exact Option.some.inj h ▸ hl
  · exact Option.some.inj h ▸ hf

/-- A module root is the source file exactly if the handler is orderly. -/
theorem IsRoot.orderly_iff (h : IsRoot tree source root) (closed : tree.Closed) :
    Orderly tree source ↔ sourceFile? tree source = some root := by
  constructor
  · intro ho
    rw [sourceFile?]
    cases h with
    | entry plain =>
      have hf : tree.isFile source.path = true := by
        rw [closed.isFile_eq, ho.entry plain, plain]
        rfl
      rw [if_neg (Bool.eq_false_iff.mp plain), if_pos hf]
    | first directory found =>
      have hf : tree.isFile (source.path.join modFile) = true := by
        rw [closed.isFile_eq, found, ho.first directory]
        rfl
      rw [if_pos directory, if_pos hf]
    | second directory absent found =>
      have hm : tree.isFile (source.path.join modFile) = false := by
        rw [closed.isFile_eq, absent, Bool.false_and]
      have hl : tree.isFile (source.path.join libFile) = true := by
        rw [closed.isFile_eq, found, ho.second directory absent]
        rfl
      rw [if_pos directory, if_neg (Bool.eq_false_iff.mp hm), if_pos hl]
  · intro hs
    have hf := isFile_of_sourceFile? hs
    rw [closed.isFile_eq, Bool.and_eq_true, Bool.not_eq_true'] at hf
    obtain ⟨he, hn⟩ := hf
    cases h with
    | entry plain => exact ⟨fun _ => he, by simp [plain], by simp [plain]⟩
    | first directory found => exact ⟨by simp [directory], fun _ => hn, by simp [found]⟩
    | second directory absent found =>
      exact ⟨by simp [directory], fun _ => FileTree.isDirectory_of_missing absent, fun _ _ => hn⟩

theorem Orderly.not_hasRoot (h : Orderly tree source) (closed : tree.Closed)
    (hn : sourceFile? tree source = none) : ¬ HasRoot tree source := by
  rw [← exists_moduleRoot_iff]
  rintro ⟨root, hr⟩
  rw [((isRoot_of_moduleRoot hr).orderly_iff closed).mp h] at hn
  cases hn

end Artifact.RustModule

open Artifact.RustModule (modules? IsRoot HasRoot Orderly sourceFile?)

/-! ## Runs -/

theorem generate_of_rootless {config : Config} {tree : FileTree} {handlers : List HandlerSource}
    {source : HandlerSource} (kind : config.artifactKind = .rustModule)
    (found : discover tree config.inputDir = .ok handlers) (hm : source ∈ handlers)
    (hn : ¬ HasRoot tree source) : ∃ failure, (generate config tree).1 = .error failure := by
  cases hg : (generate config tree).1 with
  | error failure => exact ⟨failure, rfl⟩
  | ok report =>
    obtain ⟨text, run⟩ := generate_ok hg
    obtain rfl := Except.ok.inj (found.symm.trans run.found)
    have ht := run.rendered
    rw [run.kind, kind] at ht
    exact absurd (Artifact.RustModule.exists_render_iff.mp ⟨text, ht⟩ source hm).2 hn

/-- What a Rust module declares. The module root of a handler is the entry itself unless that is a
directory, and in a directory `mod.rs` if it exists, or else `lib.rs`; a run fails if some directory
has neither. The module root is the source file of the handler, a regular file, exactly if no link
leads nowhere and no directory stands in the place of a file; and if so, a run fails if some handler
has no source file. -/
theorem module_roots_of_orderly_sources (config : Config) (tree : FileTree)
    (kind : config.artifactKind = .rustModule) :
    (∀ report, (generate config tree).1 = .ok report → ∃ text modules,
      LeavesText config tree report text ∧ modules? text = some modules ∧
      List.Forall₂ (fun source module => module.2 = source.id ∧
        ∃ root, module.1 = root.display ∧ IsRoot tree source root ∧
          (tree.Closed → (Orderly tree source ↔ sourceFile? tree source = some root)) ∧
          (tree.Closed → Orderly tree source → tree.isFile root = true))
        report.handlers modules) ∧
    ∀ handlers, discover tree config.inputDir = .ok handlers → ∀ source ∈ handlers,
      (¬ HasRoot tree source ∨
          tree.Closed ∧ Orderly tree source ∧ sourceFile? tree source = none) →
        ∃ failure, (generate config tree).1 = .error failure := by
  constructor
  · intro report h
    obtain ⟨text, modules, hl, hm, declared⟩ := exists_modules kind h
    refine ⟨text, modules, hl, hm, declared.imp ?_⟩
    rintro source module ⟨hshown, hid⟩
    obtain ⟨root, hr, hdisplay⟩ := shownRoot_ok hshown
    have hroot := Artifact.RustModule.isRoot_of_moduleRoot hr
    refine ⟨hid, root, hdisplay, hroot, hroot.orderly_iff, fun closed orderly => ?_⟩
    exact Artifact.RustModule.isFile_of_sourceFile? ((hroot.orderly_iff closed).mp orderly)
  · rintro handlers found source hm (hn | ⟨closed, orderly, hn⟩)
    · exact generate_of_rootless kind found hm hn
    · exact generate_of_rootless kind found hm (orderly.not_hasRoot closed hn)

/-! ### A directory with a source file, and a link to that file -/

namespace Sample

def nntp : Name := ⟨Utf8.encode "nntp", by decide⟩
def irc : Name := ⟨Utf8.encode "irc.rs", by decide⟩

/-- A handler directory with one handler, which is a directory with a source file. -/
def nested : FileTree where
  entries := [([project], .directory), ([protocols, project], .directory),
    ([nntp, protocols, project], .directory),
    ([Artifact.RustModule.libFile, nntp, protocols, project], .file [] 0o644 .owner)]
  home := [project]
  privileged := false
  distinct := by
    simp only [List.map_cons, List.map_nil]
    decide

/-- The same with a second handler, a link to the source file of the first. -/
def nestedAndLinked : FileTree :=
  nested.put [irc, protocols, project] (.link (Path.ofText "nntp/lib.rs"))

/-- The same with a directory under the first name for a module root. -/
def nestedTwice : FileTree :=
  nested.put [Artifact.RustModule.modFile, nntp, protocols, project] .directory

/-- The same without the source file. -/
def rootlessDirectory : FileTree :=
  nested.erase [Artifact.RustModule.libFile, nntp, protocols, project]

def registry : Config := { Config.standard with output := Path.ofText "registry.rs" }

def nntpSource : HandlerSource := ⟨⟨"nntp", by decide⟩, Path.ofText "protocols/nntp"⟩
def ircSource : HandlerSource := ⟨⟨"irc", by decide⟩, Path.ofText "protocols/irc.rs"⟩

end Sample

theorem nested_and_linked_sources :
    Sample.registry.artifactKind = .rustModule ∧
      (generate Sample.registry Sample.nestedAndLinked).1 =
        .ok ⟨[Sample.ircSource, Sample.nntpSource], .rustModule, 64, Path.ofText "registry.rs",
          .written⟩ ∧
      (∃ text modules,
        LeavesText Sample.registry Sample.nestedAndLinked
          ⟨[Sample.ircSource, Sample.nntpSource], .rustModule, 64, Path.ofText "registry.rs",
            .written⟩ text ∧
        modules? text = some modules ∧
        modules.map Prod.fst = ["protocols/irc.rs", "protocols/nntp/lib.rs"]) ∧
      ∃ failure, (generate Sample.registry Sample.rootlessDirectory).1 = .error failure := by
  have hk : Sample.registry.artifactKind = .rustModule := by decide +kernel
  have hg : (generate Sample.registry Sample.nestedAndLinked).1 =
      .ok ⟨[Sample.ircSource, Sample.nntpSource], .rustModule, 64, Path.ofText "registry.rs",
        .written⟩ := by decide +kernel
  have closed : Sample.nestedAndLinked.Closed := by decide +kernel
  have irc : Orderly Sample.nestedAndLinked Sample.ircSource := by
    constructor <;> decide +kernel
  have nntp : Orderly Sample.nestedAndLinked Sample.nntpSource := by
    constructor <;> decide +kernel
  obtain ⟨text, modules, hl, hm, hall⟩ :=
    (module_roots_of_orderly_sources Sample.registry Sample.nestedAndLinked hk).1 _ hg
  obtain ⟨first, rest, ⟨-, root, hd, -, hi, -⟩, hr, rfl⟩ := List.forall₂_cons_left_iff.mp hall
  obtain ⟨second, none, ⟨-, other, ho, -, hn, -⟩, he, rfl⟩ := List.forall₂_cons_left_iff.mp hr
  obtain rfl := List.forall₂_nil_left_iff.mp he
  have hirc : sourceFile? Sample.nestedAndLinked Sample.ircSource =
      some (Path.ofText "protocols/irc.rs") := by decide +kernel
  have hnntp : sourceFile? Sample.nestedAndLinked Sample.nntpSource =
      some (Path.ofText "protocols/nntp/lib.rs") := by decide +kernel
  obtain rfl := Option.some.inj (hirc.symm.trans ((hi closed).mp irc))
  obtain rfl := Option.some.inj (hnntp.symm.trans ((hn closed).mp nntp))
  refine ⟨hk, hg, ⟨text, _, hl, hm, ?_⟩, ?_⟩
  · rw [List.map_cons, List.map_singleton, hd, ho, Path.display_ofText, Path.display_ofText]
  · refine (module_roots_of_orderly_sources Sample.registry Sample.rootlessDirectory hk).2
      [Sample.nntpSource] (by decide +kernel) Sample.nntpSource (by simp) (.inl ?_)
    decide +kernel

theorem directory_declared_as_module :
    ¬ ∀ (config : Config) (tree : FileTree) (report : Report) (text : String)
      (modules : List (String × Identifier)),
      config.artifactKind = .rustModule → (generate config tree).1 = .ok report →
        LeavesText config tree report text → modules? text = some modules →
          List.Forall₂ (fun source module => ∃ root, sourceFile? tree source = some root ∧
            module.1 = root.display) report.handlers modules := by
  intro h
  have hk : Sample.registry.artifactKind = .rustModule := by decide +kernel
  have hg : (generate Sample.registry Sample.nestedTwice).1 =
      .ok ⟨[Sample.nntpSource], .rustModule, 64, Path.ofText "registry.rs", .written⟩ := by
    decide +kernel
  obtain ⟨text, modules, hl, hm, declared⟩ := exists_modules hk hg
  have hall := h _ _ _ text modules hk hg hl hm
  obtain ⟨module, rest, ⟨root, hs, hd⟩, -, rfl⟩ := List.forall₂_cons_left_iff.mp hall
  obtain ⟨shown, others, ⟨hr, -⟩, -, hc⟩ := List.forall₂_cons_left_iff.mp declared
  obtain ⟨rfl, rfl⟩ := List.cons.inj hc
  -- The source file is `lib.rs`, but `mod.rs` is declared, which is a directory.
  have hlib : sourceFile? Sample.nestedTwice Sample.nntpSource =
      some (Path.ofText "protocols/nntp/lib.rs") := by decide +kernel
  have hmod : Artifact.RustModule.moduleRoot Sample.nestedTwice Sample.nntpSource =
      .ok (Path.ofText "protocols/nntp/mod.rs") := by decide +kernel
  obtain ⟨found, hf, hshown⟩ := shownRoot_ok hr
  rw [hmod] at hf
  obtain rfl := Except.ok.inj hf
  rw [hlib] at hs
  obtain rfl := Option.some.inj hs
  rw [hd, Path.display_ofText, Path.display_ofText] at hshown
  exact absurd hshown (by decide)

end HandlerRegistry
