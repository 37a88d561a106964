import HandlerRegistry.FileTree.Path

/-!
# Kinds of artifacts

An artifact is a C header or a Rust module. Each kind has a word, and a file name ending in `.rs`
asks for a Rust module.
-/

namespace HandlerRegistry.Artifact
set_option autoImplicit false

/-- What is generated. -/
inductive Kind where
  | cHeader
  | rustModule
deriving DecidableEq, Repr

namespace Kind

def word : Kind → String
  | .cHeader => "c-header"
  | .rustModule => "rust-module"

def ofWord? (word : String) : Option Kind :=
  if word = "c-header" then some .cHeader
  else if word = "rust-module" then some .rustModule
  else none

/-- The kind that fits the name of an output file. -/
def infer (output : Path) : Kind :=
  if output.extension? = some (Utf8.encode "rs") then .rustModule else .cHeader

theorem ofWord?_eq_some_iff {word : String} {kind : Kind} :
    ofWord? word = some kind ↔ word = kind.word := by
  cases kind <;> simp only [ofWord?, Kind.word] <;> split <;> simp_all

end Kind
end HandlerRegistry.Artifact
