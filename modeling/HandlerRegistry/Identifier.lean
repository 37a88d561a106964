import HandlerRegistry.Text.Quoted
import HandlerRegistry.Text.Split
import HandlerRegistry.Text.Utf8

/-!
# Handler identifiers

A handler is known by an identifier: an ASCII letter or underscore followed by ASCII letters, digits
and underscores. The identifier is the key of the handler in the table and a part of the name of its
entry point.

* `Identifier.parse`: an identifier from a text, or the fault of that text.
* `Identifier.symbol`, `Identifier.ofSymbol?`: the entry point `process_<id>_request` and back.
* `Identifier.isReserved`: whether the identifier cannot name a Rust module.
-/

namespace HandlerRegistry
set_option autoImplicit false

/-- Why a name is no identifier, or cannot be used as one. -/
inductive IdentifierError where
  | empty
  | notUtf8
  | invalidStart (found : Char)
  | invalidChar (found : Char)
  | keyword (word : String)
deriving DecidableEq, Repr

def IdentifierError.message : IdentifierError → String
  | .empty => "name is empty"
  | .notUtf8 => "name is not valid UTF-8"
  | .invalidStart c => "name starts with " ++ Text.quotedChar c
  | .invalidChar c => "name contains " ++ Text.quotedChar c
  | .keyword word => "'" ++ word ++ "' is a reserved Rust keyword"

namespace Identifier

def mayStart (c : Char) : Bool := c.isAlpha || c == '_'

/-- The characters that may follow in an identifier. -/
def mayContinue (c : Char) : Bool := c.isAlphanum || c == '_'

def isName : List Char → Bool
  | [] => false
  | first :: rest => mayStart first && rest.all mayContinue

/-- The first fault of a name, from the left. -/
def fault : List Char → Option IdentifierError
  | [] => some .empty
  | first :: rest =>
    if mayStart first then
      (rest.find? fun c => !mayContinue c).map .invalidChar
    else some (.invalidStart first)

end Identifier

/-- The name of a handler. -/
structure Identifier where
  /-- The name as it is written. -/
  text : String
  /-- The name has no fault. -/
  faultless : Identifier.fault text.toList = none
deriving DecidableEq

namespace Identifier

/-- The identifier that a text writes, or the fault of the text. -/
def parse (text : String) : Except IdentifierError Identifier :=
  match h : fault text.toList with
  | none => .ok ⟨text, h⟩
  | some error => .error error

def symbolStart : String := "process_"

def symbolEnd : String := "_request"

/-- The entry point that the handler has to define. -/
def symbol (id : Identifier) : String := symbolStart ++ id.text ++ symbolEnd

/-- The identifier whose entry point has the given name. -/
def ofSymbol? (name : String) : Option Identifier :=
  match (Text.stripStart symbolStart.toList name.toList).bind (Text.stripEnd symbolEnd.toList) with
  | some inner => (parse (String.ofList inner)).toOption
  | none => none

/-- The words that Rust reserves, and the lone underscore. -/
def reservedWords : List String :=
  ["_", "Self", "abstract", "as", "async", "await", "become", "box", "break", "const", "continue",
    "crate", "do", "dyn", "else", "enum", "extern", "false", "final", "fn", "for", "gen", "if",
    "impl", "in", "let", "loop", "macro", "match", "mod", "move", "mut", "override", "priv", "pub",
    "ref", "return", "self", "static", "struct", "super", "trait", "true", "try", "type", "typeof",
    "unsafe", "unsized", "use", "virtual", "where", "while", "yield"]

/-- Whether the identifier cannot name a Rust module. -/
def isReserved (id : Identifier) : Bool := reservedWords.contains id.text

/-- Identifiers are ordered by their bytes. -/
def compare (a b : Identifier) : Ordering := Utf8.compare a.text b.text

def sort (ids : List Identifier) : List Identifier :=
  ids.mergeSort fun a b => Utf8.le a.text b.text

/-! ## Parsing and the form of a name -/

theorem fault_eq_none_iff {name : List Char} : fault name = none ↔ isName name = true := by
  cases name with
  | nil => simp [fault, isName]
  | cons first rest => by_cases h : mayStart first <;> simp [fault, isName, h]

theorem parse_eq_ok_iff {text : String} {id : Identifier} :
    parse text = .ok id ↔ text = id.text := by
  unfold parse
  split
  · rename_i h
    constructor
    · intro e
      cases e
      rfl
    · rintro rfl
      rfl
  · rename_i error h
    constructor
    · intro e
      cases e
    · rintro rfl
      rw [id.faultless] at h
      cases h

theorem parse_eq_error_iff {text : String} {error : IdentifierError} :
    parse text = .error error ↔ fault text.toList = some error := by
  unfold parse
  split
  · rename_i h
    simp [h]
  · rename_i e h
    simp [h]

theorem parse_text (id : Identifier) : parse id.text = .ok id := parse_eq_ok_iff.mpr rfl

end Identifier
end HandlerRegistry
