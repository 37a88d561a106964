import HandlerRegistry.FileTree.Listing
import HandlerRegistry.Text.Hex

/-!
# Snapshots

A snapshot writes down a tree, one line for every entry below the working directory, a directory
before what it holds. Byte strings stand in hexadecimal digits: `d PATH` for a directory,
`f MODE PATH CONTENT` for a file with its mode in octal, `l PATH TARGET` for a link. It says nothing
of users; a tree that a snapshot writes is seen by a process that may read everything.

* `FileTree.ofSnapshot`: the tree that the lines of a snapshot write.
* `FileTree.snapshot`: the lines of a tree.
-/

namespace HandlerRegistry.FileTree
set_option autoImplicit false

/-- The name of the working directory of a snapshot. -/
def snapshotName : Name := ⟨Utf8.encode "work", by decide⟩

def readPath (digits : List Char) : Option Path := (Text.readHex digits).map Path.mk

/-- The tree with the entry of one line. -/
def addLine (tree : FileTree) (line : List Char) : Option FileTree :=
  match line.splitOn ' ' with
  | [['d'], path] => do
    let path ← readPath path
    (tree.makeDirectories path).toOption
  | [['f'], mode, path, content] => do
    let path ← readPath path
    let content ← Text.readHex content
    (tree.writeFile path content (Nat.ofDigitChars 8 mode 0)).toOption
  | [['l'], path, target] => do
    let path ← readPath path
    let target ← readPath target
    (tree.makeLink path target).toOption
  | _ => none

/-- The tree with the entries of several lines; empty lines mean nothing. -/
def addLines : FileTree → List (List Char) → Option FileTree
  | tree, [] => some tree
  | tree, [] :: rest => addLines tree rest
  | tree, line :: rest => (tree.addLine line).bind fun tree => addLines tree rest

/-- The tree that the lines of a snapshot write. -/
def ofSnapshot (text : String) : Option FileTree :=
  (empty snapshotName).addLines (text.toList.splitOn '\n')

def snapshotLine (directory : Place) (entry : Place × Node) : String :=
  let path := Text.writeHex (relativePath directory entry.1).bytes
  String.ofList <| match entry.2 with
    | .directory => 'd' :: ' ' :: path
    | .file content mode _ =>
      'f' :: ' ' :: (Nat.toDigits 8 mode ++ ' ' :: path ++ ' ' :: Text.writeHex content)
    | .link target => 'l' :: ' ' :: (path ++ ' ' :: Text.writeHex target.bytes)

def snapshot (tree : FileTree) : String :=
  let below := tree.entries.filter fun entry => entry.1 != tree.home && isWithin tree.home entry.1
  let ordered := below.mergeSort fun a b => a.1.length ≤ b.1.length
  String.join (ordered.map fun entry => snapshotLine tree.home entry ++ "\n")

end HandlerRegistry.FileTree
