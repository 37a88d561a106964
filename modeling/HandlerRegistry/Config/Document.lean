import HandlerRegistry.Config.Basic
import HandlerRegistry.Failure
import HandlerRegistry.FileTree.Resolve
import HandlerRegistry.Toml.Document

/-!
# Configuration documents

A configuration is written as a TOML document with the keys `input-dir`, `output`, `kind` and
`capacity`, all of them optional. The keys are visited in the order of their bytes, and the first
one that cannot be used decides why a document is refused.

The account of a refusal is given in terms of the table of plain values that the document writes. In
such a table an integer has 64 bits, one of them for the sign, and a float is finite unless it is
written as infinite. A document with a number beyond these writes no such table; if it is refused,
it is refused as no TOML and without an account, whatever else is wrong with it. The number may even
be a capacity with which the document would be accepted but for an unknown key: a capacity can use
all of 64 bits, but only in a document that is accepted.

* `Config.ofDocument`: the configuration that a text writes.
* `Config.load`: the configuration in a file.
-/

namespace HandlerRegistry.Config
set_option autoImplicit false

/-! ## The values of keys -/

def readPath : Toml.Value → Except Refusal Path
  | .string text => .ok (Path.ofText text)
  | value => .error (.notAPath value.describe)

def slotsOfInt (value : Int) : Option UInt64 :=
  if value < 0 then none else Text.word64? value.toNat

/-- A capacity is written as an integer, or as the text that the command line takes. -/
def readCapacity : Toml.Value → Except Refusal Capacity
  | .integer value =>
    match slotsOfInt value with
    | some slots => .ok (.fixed slots)
    | none => .error .notACapacity
  | .string text =>
    match Capacity.parse text with
    | .ok capacity => .ok capacity
    | .error error => .error (.badCapacity error)
  | _ => .error .notACapacity

def readKindWord (word : String) : Except Refusal Artifact.Kind :=
  match Artifact.Kind.ofWord? word with
  | some kind => .ok kind
  | none => .error (.unknownKind word)

/-- The value that a kind may have where a table names it: an empty table or array. -/
def readKindContent (kind : Artifact.Kind) : Toml.Value → Except Refusal Artifact.Kind
  | .table _ [] => .ok kind
  | .table _ _ => .error .kindHoldsEntries
  | .array _ [] => .ok kind
  | .array _ _ => .error .kindHoldsItems
  | value => .error (.kindHoldsValue value.typeName)

/-- A kind is written as its word, or as a table whose only key is its word. -/
def readKind : Toml.Value → Except Refusal Artifact.Kind
  | .string word => readKindWord word
  | .table _ [] => .error .kindTableEmpty
  | .table _ [(word, content)] =>
    match readKindWord word with
    | .ok kind => readKindContent kind content
    | .error refusal => .error refusal
  | .table _ _ => .error .kindTableCrowded
  | _ => .error .kindNotNamed

/-! ## Documents -/

/-- A configuration with the value of one key. -/
def set (config : Config) (key : String) (value : Toml.Value) : Except Refusal Config :=
  if key = "input-dir" then
    (readPath value).map fun path => { config with inputDir := path }
  else if key = "output" then
    (readPath value).map fun path => { config with output := path }
  else if key = "kind" then
    (readKind value).map fun kind => { config with kind := some kind }
  else if key = "capacity" then
    (readCapacity value).map fun capacity => { config with capacity := capacity }
  else .error (.unknownField key)

/-- A configuration with the values of several keys. -/
def setAll (config : Config) : Toml.Entries → Except Refusal Config
  | [] => .ok config
  | (key, value) :: rest =>
    match config.set key value with
    | .ok config => setAll config rest
    | .error refusal => .error refusal

/-- The entries of a document in the order in which they are visited. -/
def visitOrder (entries : Toml.Entries) : Toml.Entries :=
  entries.mergeSort fun a b => Utf8.le a.1 b.1

/-- The configuration that a text writes. A text that is refused for any reason is refused as no
TOML if one of its numbers, be it a capacity that could be used, is beyond the plain values: it
writes no table in terms of which the reason could be given. -/
def ofDocument (text : String) : Except Refusal Config :=
  match Toml.readDocument text with
  | none => .error .notToml
  | some entries =>
    match standard.setAll (visitOrder entries) with
    | .ok config => .ok config
    | .error refusal =>
      .error (if Toml.Value.anyEntryExcessive entries then .notToml else refusal)

def readText (tree : FileTree) (path : Path) : Except IoError String :=
  match tree.fileContent path with
  | .error cause => .error cause
  | .ok content =>
    match Utf8.decode? content with
    | some text => .ok text
    | none => .error .notText

def load (tree : FileTree) (path : Path) : Except Failure Config :=
  match readText tree path with
  | .error cause => .error (.unreadableConfig path cause)
  | .ok text =>
    match ofDocument text with
    | .error refusal => .error (.invalidConfig path refusal)
    | .ok config => .ok config

end HandlerRegistry.Config
