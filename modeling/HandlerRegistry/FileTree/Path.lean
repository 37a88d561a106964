import HandlerRegistry.Text.Split
import HandlerRegistry.Text.Utf8

/-!
# Names and paths

A name is what one directory entry may be called; a path is any byte string, read as segments
between slashes. Empty segments and `.` stay where they are, `..` goes up, all others go down.

* `Name`: a non-empty byte string of at most 255 bytes that holds neither slash nor NUL and is
  neither `.` nor `..`.
* `Path.hasNul`, `Path.isTooLong`: the paths that no operation accepts.
* `Path.steps`: what the segments of a path do, for a walk through a tree.
* `Path.components`: the parts that a path is made of when it is taken as a text.
* `Path.join`, `Path.directory`, `Path.extension?`, `Path.comesAfter`: the text-level operations.
-/

namespace HandlerRegistry
set_option autoImplicit false

def slash : UInt8 := 0x2F

/-- The byte that introduces an extension or a hidden name. -/
def dot : UInt8 := 0x2E

/-! ## Names -/

/-- Whether a directory entry can have this name. -/
def Name.admits (bytes : List UInt8) : Bool :=
  bytes != [] && bytes != [dot] && bytes != [dot, dot] &&
    !bytes.contains slash && !bytes.contains 0 && bytes.length ≤ 255

/-- The name of a directory entry. -/
structure Name where
  bytes : List UInt8
  admitted : Name.admits bytes = true
deriving DecidableEq

namespace Name

/-- The name that a byte string is, if an entry can be called so. -/
def ofBytes? (bytes : List UInt8) : Option Name :=
  if h : Name.admits bytes = true then some ⟨bytes, h⟩ else none

/-- Whether the name begins with a dot. -/
def isHidden (name : Name) : Bool := name.bytes.head? == some dot

end Name

/-! ## Paths -/

/-- A path as it is written. -/
structure Path where
  bytes : List UInt8
deriving DecidableEq

namespace Path

def ofText (text : String) : Path := ⟨Utf8.encode text⟩

/-- The path as it is shown. -/
def display (path : Path) : String := Utf8.lossy path.bytes

/-- Whether the path holds a NUL byte, which no operation accepts. -/
def hasNul (path : Path) : Bool := path.bytes.contains 0

/-- The greatest number of bytes in a path that an operation accepts. -/
def maxLength : Nat := 4095

/-- Whether the path has more bytes than any operation accepts. -/
def isTooLong (path : Path) : Bool := maxLength < path.bytes.length

def isAbsolute (path : Path) : Bool := path.bytes.head? == some slash

/-- The segments between the slashes; at least one, possibly empty. -/
def segments (path : Path) : List (List UInt8) := path.bytes.splitOn slash

/-! ### Steps of a walk -/

/-- What one segment of a path does. -/
inductive Step where
  /-- Stays in the directory: an empty segment or a dot. -/
  | stay
  /-- Goes to the directory above. -/
  | up
  /-- Goes to the entry of this name. -/
  | enter (name : Name)
  /-- Asks for an entry that no directory can hold. -/
  | overlong
deriving DecidableEq

/-- What a segment does. A segment without NUL that is no name is over 255 bytes long. -/
def Step.ofSegment (segment : List UInt8) : Step :=
  if segment = [] ∨ segment = [dot] then .stay
  else if segment = [dot, dot] then .up
  else match Name.ofBytes? segment with
    | some name => .enter name
    | none => .overlong

/-- What the segments of a path do, in order. -/
def steps (path : Path) : List Step := path.segments.map Step.ofSegment

/-! ### Components of a text -/

/-- A part of a path taken as a text. -/
inductive Component where
  | root
  | here
  | above
  | named (bytes : List UInt8)
deriving DecidableEq

/-- The component that a segment after the first one is: empty segments and dots are none. -/
def Component.ofSegment (segment : List UInt8) : Option Component :=
  if segment = [] ∨ segment = [dot] then none
  else if segment = [dot, dot] then some .above
  else some (.named segment)

/-- The components of a path: the root if it is absolute, a dot only at the beginning. -/
def components (path : Path) : List Component :=
  match path.segments with
  | [] => []
  | first :: rest =>
    let start :=
      if first = [] then (if rest = [] then none else some .root)
      else if first = [dot] then some .here
      else Component.ofSegment first
    start.toList ++ rest.filterMap Component.ofSegment

/-- Whether a segment after the first one is no component. -/
def isVoid (segment : List UInt8) : Bool := segment == [] || segment == [dot]

/-- The directory in which the last component of a path lies, as a path: what is written before that
component and the segments around it that are none, or the working directory if nothing is left. -/
def directory (path : Path) : Path :=
  match path.segments with
  | [] => ⟨[dot]⟩
  | first :: rest =>
    match rest.reverse.dropWhile isVoid with
    | [] => ⟨[dot]⟩
    | _ :: above =>
      let kept := (above.dropWhile isVoid).reverse
      if first = [] ∧ kept = [] then ⟨[slash]⟩ else ⟨[slash].intercalate (first :: kept)⟩

/-- A path followed by a name; a slash is put between them if the path does not end in one. -/
def join (path : Path) (name : Name) : Path :=
  if path.bytes = [] ∨ path.bytes.getLast? = some slash then ⟨path.bytes ++ name.bytes⟩
  else ⟨path.bytes ++ slash :: name.bytes⟩

/-- The extension of a name: what follows its last dot, unless only that dot begins the name. -/
def extensionOf (name : List UInt8) : Option (List UInt8) :=
  match Text.splitLast dot name with
  | some ([], _) => none
  | some (_, extension) => some extension
  | none => none

/-- The extension of the last component, if that one is a name. -/
def extension? (path : Path) : Option (List UInt8) :=
  match path.components.getLast? with
  | some (.named name) => extensionOf name
  | _ => none

/-! ### Order of paths -/

/-- The sort key of a component: root, dot, two dots, then the names by their bytes. -/
def Component.key : Component → List Nat
  | .root => [0]
  | .here => [1]
  | .above => [2]
  | .named bytes => 3 :: bytes.map UInt8.toNat

/-- Whether a path comes after another, component by component. -/
def comesAfter (a b : Path) : Bool :=
  decide (b.components.map Component.key < a.components.map Component.key)

end Path
end HandlerRegistry
