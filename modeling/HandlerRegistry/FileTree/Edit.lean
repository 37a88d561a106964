import HandlerRegistry.FileTree.Resolve

/-!
# Changing a tree by path

The everyday changes: directories, files and links made, entries removed and moved. The process owns
the files that it writes.
-/

namespace HandlerRegistry.FileTree
set_option autoImplicit false

/-- A tree that holds nothing but the directory which relative paths start from, seen by a process
that may read everything. -/
def empty (name : Name) : FileTree where
  entries := [([name], .directory)]
  home := [name]
  privileged := true
  distinct := by simp

/-- The tree with a directory at every step of a walk. -/
def makeAlong (tree : FileTree) (place : Place) : List Path.Step → Except IoError FileTree
  | [] => if tree.isDirectoryAt place then .ok tree else .error .notADirectory
  | step :: rest =>
    if tree.isDirectoryAt place then
      match step with
      | .stay => makeAlong tree place rest
      | .up => makeAlong tree place.tail rest
      | .overlong => .error .nameTooLong
      | .enter name =>
        match tree.lookup (name :: place) with
        | none => makeAlong (tree.put (name :: place) .directory) (name :: place) rest
        | some (.link _) => do
          let target ← tree.walk maxLinks place [.enter name]
          makeAlong tree target rest
        | some _ => makeAlong tree (name :: place) rest
    else .error .notADirectory

def makeDirectories (tree : FileTree) (path : Path) : Except IoError FileTree :=
  match pathFault path with
  | some cause => .error cause
  | none => tree.makeAlong (startOf tree.home path) path.steps

/-- The place of a new entry. -/
def vacantPlace (tree : FileTree) (path : Path) : Except IoError Place := do
  let place ← tree.entryPlace path
  if (tree.lookup place).isSome then .error .alreadyExists else .ok place

/-- The place where a file written to a path comes to be if the path leads nowhere: a link at its
end is followed to the place that it names. -/
def creationPlace (tree : FileTree) : Nat → Path → Except IoError Place
  | links, path => do
    let place ← tree.entryPlace path
    match tree.lookup place, links with
    | none, _ => .ok place
    | some (.link target), links + 1 => creationPlace { tree with home := place.tail } links target
    | some (.link _), 0 => .error .tooManyLinks
    | some _, _ => .error .alreadyExists

/-- A file written: the one that the path leads to, or a new one. -/
def writeFile (tree : FileTree) (path : Path) (content : List UInt8) (mode : Nat) :
    Except IoError FileTree :=
  match tree.resolve path with
  | .ok place =>
    if tree.isDirectoryAt place then .error .isADirectory
    else .ok (tree.put place (.file content mode .owner))
  | .error _ => do
    let place ← tree.creationPlace maxLinks path
    .ok (tree.put place (.file content mode .owner))

def makeLink (tree : FileTree) (path target : Path) : Except IoError FileTree := do
  if target.bytes = [] then .error .notFound
  let place ← tree.vacantPlace path
  .ok (tree.put place (.link target))

/-- Whether a place is another one or lies below it. -/
def isWithin (upper place : Place) : Bool := upper.isSuffixOf place

def remove (tree : FileTree) (path : Path) : Except IoError FileTree := do
  let place ← tree.entryPlace path
  if (tree.lookup place).isNone then .error .notFound
  .ok (tree.keep fun other => !isWithin place other)

/-- A place below one directory, taken to the same position below another. -/
def relocate (old new place : Place) : Place := place.take (place.length - old.length) ++ new

/-- Whether an entry may be moved onto a place: a file onto anything but a directory, a directory
onto nothing or an empty one. -/
def mayReplace (tree : FileTree) (old new : Place) : Except IoError Unit :=
  match tree.isDirectoryAt old, tree.lookup new with
  | false, some .directory => .error .isADirectory
  | true, some .directory =>
    if tree.childrenOf new = [] then .ok () else .error .directoryNotEmpty
  | true, some _ => .error .notADirectory
  | _, _ => .ok ()

def rename (tree : FileTree) (source target : Path) : Except IoError FileTree := do
  let old ← tree.entryPlace source
  let new ← tree.entryPlace target
  if (tree.lookup old).isNone then .error .notFound
  else if old = new then .ok tree
  else if isWithin old new then .error .invalidArgument
  else do
    tree.mayReplace old new
    let moved := tree.entries.filter fun entry => isWithin old entry.1
    .ok (moved.foldl (fun tree entry => tree.put (relocate old new entry.1) entry.2)
      (tree.keep fun other => !isWithin old other))

end HandlerRegistry.FileTree
