import HandlerRegistry.FileTree.Basic
import HandlerRegistry.FileTree.IoError

/-!
# Where a path leads

A walk takes the steps of a path one by one. Every step is taken in a directory; a link met on the
way is replaced by the steps of its target, at most forty times in one walk.

* `FileTree.walk`: the walk with a number of links still allowed.
* `FileTree.resolve`: the place that a path leads to, a link at its end followed.
* `FileTree.entryPlace`: the place of the entry that a path names, a link at its end not followed.
* `FileTree.fileContent`, `FileTree.listDirectory`, `FileTree.isDirectory`, `FileTree.pathExists`:
  the questions asked about a path. Only the first depends on what the process may read.
-/

namespace HandlerRegistry.FileTree
set_option autoImplicit false

/-! ## Walks -/

/-- A walk that hands over to `follow` at the first link: with the directory that holds the link,
the target of the link and the steps after it. -/
def walkWith (tree : FileTree)
    (follow : Place → Path → List Path.Step → Except IoError Place) :
    Place → List Path.Step → Except IoError Place
  | place, [] => .ok place
  | place, step :: rest =>
    if tree.isDirectoryAt place then
      match step with
      | .stay => walkWith tree follow place rest
      | .up => walkWith tree follow place.tail rest
      | .overlong => .error .nameTooLong
      | .enter name =>
        match tree.lookup (name :: place) with
        | none => .error .notFound
        | some (.link target) => follow place target rest
        | some _ => walkWith tree follow (name :: place) rest
    else .error .notADirectory

/-- The place where the walk of a path begins. -/
def startOf (directory : Place) (path : Path) : Place :=
  if path.isAbsolute then [] else directory

/-- A walk that may still follow the given number of links. -/
def walk (tree : FileTree) : Nat → Place → List Path.Step → Except IoError Place
  | 0 => tree.walkWith fun _ _ _ => .error .tooManyLinks
  | links + 1 => tree.walkWith fun place target rest =>
      tree.walk links (startOf place target) (target.steps ++ rest)

/-- The number of links that one walk may follow. -/
def maxLinks : Nat := 40

/-- Why no walk can begin, whatever the tree. -/
def pathFault (path : Path) : Option IoError :=
  if path.hasNul then some .nulInPath
  else if path.bytes = [] then some .notFound
  else if path.isTooLong then some .nameTooLong
  else none

/-- The walk of some steps of a path. -/
def walkPath (tree : FileTree) (path : Path) (steps : List Path.Step) : Except IoError Place :=
  match pathFault path with
  | some cause => .error cause
  | none => tree.walk maxLinks (startOf tree.home path) steps

/-- The place that a path leads to. -/
def resolve (tree : FileTree) (path : Path) : Except IoError Place :=
  tree.walkPath path path.steps

/-! ## The entry that a path names -/

/-- The segments of a path above its last non-empty one, and that one. -/
def splitEntry (path : Path) : List (List UInt8) × List UInt8 :=
  match path.segments.reverse.dropWhile List.isEmpty with
  | [] => ([], [])
  | last :: above => (above.reverse, last)

/-- The directory that holds the entry which a path names. -/
def parentPlace (tree : FileTree) (path : Path) : Except IoError Place :=
  tree.walkPath path ((splitEntry path).1.map Path.Step.ofSegment ++ [.stay])

/-- The place of the entry that a path names, whether or not there is one. -/
def entryPlace (tree : FileTree) (path : Path) : Except IoError Place := do
  let parent ← tree.parentPlace path
  match Path.Step.ofSegment (splitEntry path).2 with
  | .stay => .error .busy
  | .up => .error .busy
  | .overlong => .error .nameTooLong
  | .enter name => .ok (name :: parent)

/-! ## Questions about a path -/

/-- The content of the file that a path leads to, if the process may read it. -/
def fileContent (tree : FileTree) (path : Path) : Except IoError (List UInt8) := do
  let place ← tree.resolve path
  match tree.lookup place with
  | some (.file content mode standing) =>
    if tree.mayRead mode standing then .ok content else .error .permissionDenied
  | _ => .error .isADirectory

/-- The directory that a path leads to. -/
def resolveDirectory (tree : FileTree) (path : Path) : Except IoError Place := do
  let place ← tree.resolve path
  if tree.isDirectoryAt place then .ok place else .error .notADirectory

/-- The names in the directory that a path leads to. -/
def listDirectory (tree : FileTree) (path : Path) : Except IoError (List Name) :=
  tree.childrenOf <$> tree.resolveDirectory path

def isDirectory (tree : FileTree) (path : Path) : Bool :=
  match tree.resolve path with
  | .ok place => tree.isDirectoryAt place
  | .error _ => false

def pathExists (tree : FileTree) (path : Path) : Bool := (tree.resolve path).toBool

end HandlerRegistry.FileTree
