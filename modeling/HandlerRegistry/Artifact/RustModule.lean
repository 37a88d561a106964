import HandlerRegistry.Artifact.Template

/-!
# The Rust module

The module declares every handler as a module of its own, read from the handler's module root, lists
the names of the handlers, and defines `collect_handlers`, which enters all of them into a new
handler table. A handler named like a reserved word cannot be expressed.

* `moduleRoot`: the file that holds the module of a handler.
-/

namespace HandlerRegistry.Artifact.RustModule
set_option autoImplicit false

/-- The first file name under which a directory may hold its module root. -/
def modFile : Name := ⟨Utf8.encode "mod.rs", by decide⟩

/-- The second file name under which a directory may hold its module root. -/
def libFile : Name := ⟨Utf8.encode "lib.rs", by decide⟩

/-- The path of a handler's module root: the entry itself, or a file in it if it is a directory. -/
def moduleRoot (tree : FileTree) (source : HandlerSource) : Except Failure Path :=
  if tree.isDirectory source.path then
    if tree.pathExists (source.path.join modFile) then .ok (source.path.join modFile)
    else if tree.pathExists (source.path.join libFile) then .ok (source.path.join libFile)
    else .error (.missingModule source.path)
  else .ok source.path

/-- Refuses a handler whose identifier is a reserved word. -/
def check (source : HandlerSource) : Except Failure Unit :=
  if source.id.isReserved then
    .error (.invalidIdentifier source.path (.keyword source.id.text))
  else .ok ()

def preamble : String := "// @generated by protoreg. Do not edit.\n\n"

/-- The declaration of a module whose root is known. -/
def declare (root : Path) (id : Identifier) : String :=
  "#[path = " ++ Text.quoted root.display ++ "]\npub mod " ++ id.text ++ ";"

def declaration (tree : FileTree) (source : HandlerSource) : Except Failure String :=
  match moduleRoot tree source with
  | .ok root => .ok (declare root source.id)
  | .error failure => .error failure

/-- The list of names, and the opening of the routine. -/
def opening (sources : List HandlerSource) (capacity : Nat) : String :=
  "\n\n/// Names of every registered protocol handler, sorted.\n" ++
    "pub const HANDLER_NAMES: &[&str] = &" ++ Text.quotedList (sources.map (·.id.text)) ++
    ";\n\n" ++
    "/// Builds the protocol handler table, or `None` if it cannot be allocated.\n" ++
    "#[allow(unused_mut)]\n" ++
    "pub fn collect_handlers() -> ::core::option::Option<::protoreg_dispatch::HandlerTable> \x7b\n" ++
    "\tlet mut tbl = ::protoreg_dispatch::HandlerTable::try_with_capacity(" ++ capacity.repr ++
    ")?;\n"

/-- The statement that enters a handler into the table. -/
def registration (source : HandlerSource) : String :=
  "\ttbl.insert(\"" ++ source.id.text ++ "\", " ++ source.id.text ++ "::" ++ source.id.symbol ++
    ");"

def closing : String := "\n\t::core::option::Option::Some(tbl)\n\x7d\n"

def template : Template where
  check := check
  preamble := preamble
  declaration := declaration
  opening := opening
  registration := registration
  closing := closing

end HandlerRegistry.Artifact.RustModule
