import HandlerRegistry.Failure
import HandlerRegistry.FileTree.Resolve

/-!
# Discovery of handlers

Every visible entry of the handler directory is a handler. A directory is known by its whole name,
anything else by its name without the extension. The handlers are sorted by identifier, so that the
order in which the directory lists its entries does not matter.

* `identify`: the identifier of one entry, or none for a hidden one.
* `insertSource`: one handler added to the sorted list.
* `collect`: the handlers of a list of entries.
* `discover`: the handlers of a directory.
-/

namespace HandlerRegistry
set_option autoImplicit false

/-- A discovered handler: its identifier, and the path of the entry that defines it. -/
structure HandlerSource where
  id : Identifier
  path : Path
deriving DecidableEq

namespace Discovery

/-- A name without its extension. A name whose only dot comes first has none. -/
def stem (name : List Char) : List Char :=
  match Text.splitLast '.' name with
  | some ([], _) => name
  | some (before, _) => before
  | none => name

/-- The part of an entry's name that has to be an identifier. -/
def baseName (isDirectory : Bool) (name : String) : String :=
  if isDirectory then name else String.ofList (stem name.toList)

/-- The identifier of the entry of a name, of which the path is given. Hidden entries have none. -/
def identify (tree : FileTree) (path : Path) (name : Name) : Except Failure (Option Identifier) :=
  match Utf8.decode? name.bytes with
  | none => .error (.invalidIdentifier path .notUtf8)
  | some text =>
    if name.isHidden then .ok none
    else match Identifier.parse (baseName (tree.isDirectory path) text) with
      | .ok id => .ok (some id)
      | .error reason => .error (.invalidIdentifier path reason)

/-- The failure for two entries of one identifier; the paths are named in their order. -/
def duplicate (id : Identifier) (a b : Path) : Failure :=
  if a.comesAfter b then .duplicateIdentifier id b a else .duplicateIdentifier id a b

/-- A handler added to a list sorted by identifier. -/
def insertSource (new : HandlerSource) : List HandlerSource → Except Failure (List HandlerSource)
  | [] => .ok [new]
  | old :: rest =>
    match new.id.compare old.id with
    | .lt => .ok (new :: old :: rest)
    | .eq => .error (duplicate old.id old.path new.path)
    | .gt =>
      match insertSource new rest with
      | .ok sorted => .ok (old :: sorted)
      | .error failure => .error failure

/-- The handlers found so far, with those of the entries of further names. -/
def collect (tree : FileTree) (directory : Path) (found : List HandlerSource) :
    List Name → Except Failure (List HandlerSource)
  | [] => .ok found
  | name :: rest =>
    match identify tree (directory.join name) name with
    | .error failure => .error failure
    | .ok none => collect tree directory found rest
    | .ok (some id) =>
      match insertSource ⟨id, directory.join name⟩ found with
      | .error failure => .error failure
      | .ok found => collect tree directory found rest

end Discovery

/-- The handlers of a directory, sorted by identifier. -/
def discover (tree : FileTree) (directory : Path) : Except Failure (List HandlerSource) :=
  match tree.listDirectory directory with
  | .error cause => .error (.unreadableDirectory directory cause)
  | .ok names => Discovery.collect tree directory [] names

end HandlerRegistry
