import HandlerRegistry.Failure
import HandlerRegistry.FileTree.Resolve

/-!
# Replacing an artifact

An artifact is replaced as a whole: its text goes into a temporary entry beside it, which then takes
its place. A file that reads as the text already is left alone; one that the process may not read is
replaced whatever it holds. A failed replacement removes the temporary entry.

* `freshName`: a name for the temporary entry that nothing in the tree mentions, so that no walk can
  meet it.
* `replaceablePlace`: the place that the temporary entry may take.
* `write`: the whole replacement.
-/

namespace HandlerRegistry.Artifact
set_option autoImplicit false

/-- What became of an artifact. -/
inductive Outcome where
  | written
  /-- The file already read as the text. -/
  | unchanged
deriving DecidableEq, Repr

/-! ## The temporary entry -/

/-- The names that the segments of a path write. -/
def pathNames (path : Path) : List Name := path.segments.filterMap Name.ofBytes?

def nodeNames : Node → List Name
  | .link target => pathNames target
  | _ => []

/-- The names mentioned by a tree or by a path. -/
def namesInUse (tree : FileTree) (path : Path) : List Name :=
  pathNames path ++ tree.home ++
    tree.entries.flatMap fun entry => entry.1 ++ nodeNames entry.2

/-- The temporary name of a number, which is written in six digits if they are enough. -/
def temporaryName? (number : Nat) : Option Name :=
  let digits := Nat.toDigits 10 number
  Name.ofBytes? (Utf8.encode
    (".tmp" ++ String.ofList (List.replicate (6 - digits.length) '0' ++ digits)))

/-- The first temporary name that is not in use. -/
def freshName (used : List Name) : Option Name :=
  (List.range (used.length + 1)).findSome? fun number =>
    (temporaryName? number).filter fun name => !used.contains name

/-- The mode with which a temporary entry is made. -/
def temporaryMode : Nat := 0o600

/-- The mode of an artifact that replaces nothing. -/
def newMode : Nat := 0o644

/-- A path as it is written from the root. -/
def absolutePath (tree : FileTree) (path : Path) : Path :=
  if path.isAbsolute then path
  else ⟨(tree.home.reverse.flatMap fun name => slash :: name.bytes) ++ slash :: path.bytes⟩

/-- A temporary entry for a path: its place, and the tree with it. The entry is made by its path
from the root, which must not be too long. -/
def createTemporary (tree : FileTree) (path : Path) : Except IoError (Place × FileTree) :=
  match freshName (namesInUse tree path) with
  | none => .error .noTemporaryName
  | some name =>
    match FileTree.pathFault ((absolutePath tree path.directory).join name) with
    | some cause => .error cause
    | none =>
      match tree.resolveDirectory path.directory with
      | .error cause => .error cause
      | .ok directory =>
        .ok (name :: directory, tree.put (name :: directory) (.file [] temporaryMode .owner))

/-! ## The replacement -/

/-- The mode for an artifact: that of the file it replaces, links followed. -/
def modeFor (tree : FileTree) (path : Path) : Nat :=
  match tree.resolve path with
  | .ok place =>
    match tree.lookup place with
    | some (.file _ mode _) => mode
    | _ => newMode
  | .error _ => newMode

/-- The place that a file moved to a path takes: that of the entry which the path names. -/
def replaceablePlace (tree : FileTree) (path : Path) : Except IoError Place :=
  if path.hasNul then .error .invalidArgument
  else match tree.entryPlace path with
    | .error cause => .error cause
    | .ok place =>
      if path.bytes.getLast? = some slash then .error .notADirectory
      else if tree.isDirectoryAt place then .error .isADirectory
      else .ok place

/-- A file moved onto the entry that a path names. -/
def moveOnto (tree : FileTree) (temporary : Place) (file : Node) (path : Path) :
    Except IoError FileTree :=
  match replaceablePlace tree path with
  | .ok place => .ok ((tree.erase temporary).put place file)
  | .error cause => .error cause

/-- The content of an artifact put where its path names it. -/
def replace (tree : FileTree) (path : Path) (content : List UInt8) :
    Except IoError Unit × FileTree :=
  match createTemporary tree path with
  | .error cause => (.error cause, tree)
  | .ok (temporary, created) =>
    let file := Node.file content (modeFor created path) .owner
    let filled := created.put temporary file
    match moveOnto filled temporary file path with
    | .ok replaced => (.ok (), replaced)
    | .error cause => (.error cause, filled.erase temporary)

/-- An artifact written: what became of it, and the tree afterwards. -/
def write (tree : FileTree) (path : Path) (content : List UInt8) :
    Except Failure Outcome × FileTree :=
  if (tree.fileContent path).toOption = some content then (.ok .unchanged, tree)
  else match replace tree path content with
    | (.ok (), after) => (.ok .written, after)
    | (.error cause, after) => (.error (.unwritableArtifact path cause), after)

end HandlerRegistry.Artifact
