import HandlerRegistry.FileTree.Path
import HandlerRegistry.Keyed

/-!
# Trees of files

A tree is a finite map from places to nodes, as one process sees it: with the directory from which
its relative paths start and with its rights. A place is a list of names, innermost first, so that
the directory of a place is its tail. The root is the empty place; it is always a directory and has
no entry of its own.

The mode of a file decides who may read it. Directories have no modes: each may be listed, searched
and changed. So nothing but the reading of a file is ever refused; an entry can be looked up, made,
replaced and removed whatever its mode.

* `FileTree.mayRead`: whether the process may read a file, by its mode.
* `FileTree.lookup`: the node at a place.
* `FileTree.put`, `FileTree.erase`: one entry set or removed; `lookup_put` and `lookup_erase` say
  that no other entry changes.
* `FileTree.childrenOf`: the entries of a directory, in the order in which it lists them.
-/

namespace HandlerRegistry
set_option autoImplicit false

/-- Where an entry is: its name, then the names of the directories above it. -/
abbrev Place := List Name

/-- How a process stands to a file: the class in which the mode of the file counts it. -/
inductive Standing where
  | owner
  | group
  | other
deriving DecidableEq

/-- The bit of a mode that lets a class read. -/
def Standing.readBit : Standing → Nat
  | .owner => 8
  | .group => 5
  | .other => 2

/-- What an entry is. -/
inductive Node where
  | file (content : List UInt8) (mode : Nat) (standing : Standing)
  | directory
  | link (target : Path)
deriving DecidableEq

/-- A tree of files, directories and links, as a process sees it. -/
@[ext]
structure FileTree where
  /-- The entries, each place with its node. -/
  entries : List (Place × Node)
  /-- The directory that relative paths start from. -/
  home : Place
  /-- Whether the process may read every file, whatever its mode. -/
  privileged : Bool
  /-- No place has two entries. -/
  distinct : (entries.map Prod.fst).Nodup
deriving DecidableEq

namespace FileTree

def lookup (tree : FileTree) (place : Place) : Option Node := tree.entries.lookup place

def isDirectoryAt (tree : FileTree) (place : Place) : Bool :=
  place.isEmpty || tree.lookup place == some .directory

/-- Whether the process may read a file of some mode to which it stands in some way. -/
def mayRead (tree : FileTree) (mode : Nat) (standing : Standing) : Bool :=
  tree.privileged || mode.testBit standing.readBit

/-! ## Setting and removing an entry -/

/-- The tree with a node at a place, in the position of the entry it replaces or else last. -/
def put (tree : FileTree) (place : Place) (node : Node) : FileTree where
  entries := Keyed.set place node tree.entries
  home := tree.home
  privileged := tree.privileged
  distinct := Keyed.nodup_set place node tree.entries tree.distinct

/-- The tree with only the entries whose place passes a test. -/
def keep (tree : FileTree) (test : Place → Bool) : FileTree where
  entries := tree.entries.filter fun entry => test entry.1
  home := tree.home
  privileged := tree.privileged
  distinct := Keyed.nodup_filter _ tree.entries tree.distinct

/-- The tree without the entry of one place. -/
def erase (tree : FileTree) (place : Place) : FileTree := tree.keep fun other => other != place

/-! ## The entries of a directory -/

/-- The name of an entry that lies directly in a directory. -/
def childName? (directory : Place) : Place → Option Name
  | [] => none
  | name :: above => if above = directory then some name else none

/-- The names in a directory, in the order in which it lists them. -/
def childrenOf (tree : FileTree) (directory : Place) : List Name :=
  tree.entries.filterMap fun entry => childName? directory entry.1

/-! ## The map that a tree is -/

theorem lookup_put (tree : FileTree) (place other : Place) (node : Node) :
    (tree.put place node).lookup other = if other = place then some node else tree.lookup other :=
  Keyed.lookup_set place other node tree.entries

@[simp] theorem mayRead_put (tree : FileTree) (place : Place) (node : Node) (mode : Nat)
    (standing : Standing) :
    (tree.put place node).mayRead mode standing = tree.mayRead mode standing := rfl

theorem lookup_erase (tree : FileTree) (place other : Place) :
    (tree.erase place).lookup other = if other = place then none else tree.lookup other := by
  have h := Keyed.lookup_filter (fun q => q != place) other tree.entries
  by_cases e : other = place <;> simpa [erase, keep, lookup, e] using h

end FileTree
end HandlerRegistry
