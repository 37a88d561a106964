import HandlerRegistry.Artifact.CHeader
import HandlerRegistry.Artifact.RustModule
import HandlerRegistry.Artifact.Write
import HandlerRegistry.Config.Basic

/-!
# A run of the generator

A run discovers the handlers, renders the artifact and writes it. It replaces the artifact as a
whole or fails and leaves the tree as it was.

* `generate`: the run, with the tree afterwards.
* `Build.run`: the run inside a package build, which also tells the build what it depends on.
-/

namespace HandlerRegistry
set_option autoImplicit false

def Artifact.Kind.template : Artifact.Kind → Artifact.Template
  | .cHeader => Artifact.CHeader.template
  | .rustModule => Artifact.RustModule.template

/-- What a successful run did. -/
structure Report where
  handlers : List HandlerSource
  kind : Artifact.Kind
  /-- The slots that the artifact reserves. -/
  capacity : Nat
  output : Path
  outcome : Artifact.Outcome
deriving DecidableEq

/-- The handlers of a configuration, and the text of their artifact. -/
def renderArtifact (config : Config) (tree : FileTree) :
    Except Failure (List HandlerSource × String) :=
  match discover tree config.inputDir with
  | .error failure => .error failure
  | .ok handlers =>
    match config.artifactKind.template.render tree handlers
        (config.capacity.resolve handlers.length) with
    | .error failure => .error failure
    | .ok text => .ok (handlers, text)

/-- A run: its report or the cause of its failure, and the tree afterwards. -/
def generate (config : Config) (tree : FileTree) : Except Failure Report × FileTree :=
  match renderArtifact config tree with
  | .error failure => (.error failure, tree)
  | .ok (handlers, text) =>
    match Artifact.write tree config.output (Utf8.encode text) with
    | (.error failure, after) => (.error failure, after)
    | (.ok outcome, after) =>
      (.ok ⟨handlers, config.artifactKind, config.capacity.resolve handlers.length, config.output,
        outcome⟩, after)

/-! ## Runs inside a package build -/

namespace Build

/-- The configuration of a build: a Rust module with exactly the slots it needs. -/
def config (inputDir output : Path) : Config where
  inputDir := inputDir
  output := output
  kind := some .rustModule
  capacity := .fromCount

/-- The line that makes a build depend on a path. -/
def dependency (path : Path) : String :=
  "cargo:rerun-if-changed=" ++ path.display ++ "\n"

/-- What a run inside a build leaves. -/
structure Run where
  /-- What was written to standard output. -/
  printed : String
  result : Except Failure Report
  tree : FileTree

/-- A run inside a build. The directory is a dependency even of a failed run. -/
def run (inputDir output : Path) (tree : FileTree) : Run :=
  match generate (config inputDir output) tree with
  | (.error failure, after) => ⟨dependency inputDir, .error failure, after⟩
  | (.ok report, after) =>
    ⟨dependency inputDir ++ String.join (report.handlers.map fun source => dependency source.path),
      .ok report, after⟩

/-- The last words of a build that cannot go on without its artifact. -/
def abortMessage (failure : Failure) : String :=
  "protocol registry " ++ failure.stage.name ++ " failed: " ++ failure.message

end Build
end HandlerRegistry
