import HandlerRegistry.Artifact.Kind
import HandlerRegistry.Capacity

/-!
# The configuration of a run

What a run reads, what it writes, and how. Handlers lie in `protocols` and the artifact is
`protocols.h` unless the configuration says otherwise.
-/

namespace HandlerRegistry
set_option autoImplicit false

/-- The configuration of a run. -/
structure Config where
  /-- The directory with one entry per handler. -/
  inputDir : Path
  /-- The artifact, replaced by every run. -/
  output : Path
  /-- The kind of the artifact, if it is not to be inferred from the output. -/
  kind : Option Artifact.Kind
  capacity : Capacity
deriving DecidableEq

namespace Config

/-- The configuration used when nothing is given. -/
def standard : Config where
  inputDir := Path.ofText "protocols"
  output := Path.ofText "protocols.h"
  kind := none
  capacity := .standard

/-- The kind of the artifact: the one given, or else the one that fits the output. -/
def artifactKind (config : Config) : Artifact.Kind :=
  config.kind.getD (Artifact.Kind.infer config.output)

end Config
end HandlerRegistry
