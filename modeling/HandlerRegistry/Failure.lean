import HandlerRegistry.Config.Refusal
import HandlerRegistry.FileTree.IoError
import HandlerRegistry.FileTree.Path
import HandlerRegistry.Identifier

/-!
# Why a run fails

A failed run is due to one cause, which belongs to one stage: reading the configuration, discovering
the handlers, or emitting the artifact.

* `Failure.message`: the one account of each cause.
* `Failure.ioCause?`: the cause that the operating system reported beneath it.
-/

namespace HandlerRegistry
set_option autoImplicit false

/-- The stage of a run. -/
inductive Stage where
  | config
  | discovery
  | emission
deriving DecidableEq, Repr

def Stage.name : Stage → String
  | .config => "config"
  | .discovery => "discovery"
  | .emission => "emission"

/-- The cause of a failed run. -/
inductive Failure where
  /-- The handler directory is missing or cannot be listed. -/
  | unreadableDirectory (path : Path) (cause : IoError)
  /-- The name of an entry cannot be used as an identifier. -/
  | invalidIdentifier (path : Path) (reason : IdentifierError)
  /-- Two entries have the same identifier. -/
  | duplicateIdentifier (id : Identifier) (first second : Path)
  /-- A handler that is a directory holds no module root. -/
  | missingModule (path : Path)
  /-- The artifact cannot be created or replaced. -/
  | unwritableArtifact (path : Path) (cause : IoError)
  | unreadableConfig (path : Path) (cause : IoError)
  | invalidConfig (path : Path) (refusal : Config.Refusal)
deriving DecidableEq

namespace Failure

def stage : Failure → Stage
  | .unreadableConfig _ _ => .config
  | .invalidConfig _ _ => .config
  | .unreadableDirectory _ _ => .discovery
  | .invalidIdentifier _ _ => .discovery
  | .duplicateIdentifier _ _ _ => .discovery
  | .missingModule _ => .emission
  | .unwritableArtifact _ _ => .emission

/-- The account of a cause. That of a refused configuration names the file only. -/
def message : Failure → String
  | .unreadableDirectory path cause =>
    "cannot read handler directory " ++ path.display ++ ": " ++ cause.message
  | .invalidIdentifier path reason =>
    path.display ++ " is not a valid handler identifier: " ++ reason.message
  | .duplicateIdentifier id first second =>
    "duplicate handler identifier '" ++ id.text ++ "': " ++ first.display ++ " and " ++
      second.display
  | .missingModule path =>
    "handler directory " ++ path.display ++ " has neither mod.rs nor lib.rs"
  | .unwritableArtifact path cause =>
    "cannot write artifact " ++ path.display ++ ": " ++ cause.message
  | .unreadableConfig path cause =>
    "cannot read config " ++ path.display ++ ": " ++ cause.message
  | .invalidConfig path _ => "invalid config " ++ path.display

/-- The operation on files whose failure lies beneath a cause. -/
def ioCause? : Failure → Option IoError
  | .unreadableDirectory _ cause => some cause
  | .unwritableArtifact _ cause => some cause
  | .unreadableConfig _ cause => some cause
  | _ => none

end Failure
end HandlerRegistry
