import HandlerRegistry.FileTree.Edit

/-!
# The listing of a tree

One line for every entry below the working directory, links not followed, in the order of the bytes
of the lines.
-/

namespace HandlerRegistry.FileTree
set_option autoImplicit false

/-- The path of a place below a directory. -/
def relativePath (directory place : Place) : Path :=
  ⟨[slash].intercalate ((place.take (place.length - directory.length)).reverse.map Name.bytes)⟩

/-- The permission bits of a mode, in octal. -/
def permissions (mode : Nat) : String := String.ofList (Nat.toDigits 8 (mode % 512))

/-- The line of an entry: a directory by a slash, a file by its mode and size, a link by its
target. -/
def line (directory : Place) (entry : Place × Node) : String :=
  let path := (relativePath directory entry.1).display
  match entry.2 with
  | .directory => path ++ "/"
  | .file content mode _ => path ++ " " ++ permissions mode ++ " " ++ content.length.repr
  | .link target => path ++ " -> " ++ target.display

/-- The lines of all entries below the working directory. -/
def listing (tree : FileTree) : List String :=
  let below := tree.entries.filter fun entry => entry.1 != tree.home && isWithin tree.home entry.1
  (below.map (line tree.home)).mergeSort Utf8.le

end HandlerRegistry.FileTree
