import HandlerRegistry.Artifact.Kind
import HandlerRegistry.Discovery

/-!
# Artifacts from templates

An artifact has five parts: a fixed preamble, a declaration of every handler, the opening of the
routine that builds the table, a registration of every handler, and a fixed closing. A template says
what each part is, and which handlers it cannot express.

* `Template.render`: the text of an artifact. All handlers are checked before anything is declared.
-/

namespace HandlerRegistry.Artifact
set_option autoImplicit false

/-- The parts of an artifact. -/
structure Template where
  /-- Refuses a handler that the artifact cannot express. -/
  check : HandlerSource → Except Failure Unit
  preamble : String
  /-- The declaration of a handler, which may depend on the files behind it. -/
  declaration : FileTree → HandlerSource → Except Failure String
  /-- The opening of the routine, which reserves the given number of slots. -/
  opening : List HandlerSource → Nat → String
  registration : HandlerSource → String
  closing : String

namespace Template

def checkAll (template : Template) : List HandlerSource → Except Failure Unit
  | [] => .ok ()
  | source :: rest =>
    match template.check source with
    | .ok () => checkAll template rest
    | .error failure => .error failure

def declareAll (template : Template) (tree : FileTree) :
    List HandlerSource → Except Failure (List String)
  | [] => .ok []
  | source :: rest =>
    match template.declaration tree source with
    | .error failure => .error failure
    | .ok text =>
      match declareAll template tree rest with
      | .error failure => .error failure
      | .ok texts => .ok (text :: texts)

/-- The text of an artifact whose declarations are given. -/
def assemble (template : Template) (declarations : List String) (sources : List HandlerSource)
    (capacity : Nat) : String :=
  template.preamble ++ "\n".intercalate declarations ++ template.opening sources capacity ++
    "\n".intercalate (sources.map template.registration) ++ template.closing

/-- The text of the artifact for some handlers and a number of slots. -/
def render (template : Template) (tree : FileTree) (sources : List HandlerSource)
    (capacity : Nat) : Except Failure String :=
  match template.checkAll sources with
  | .error failure => .error failure
  | .ok () =>
    match template.declareAll tree sources with
    | .error failure => .error failure
    | .ok declarations => .ok (template.assemble declarations sources capacity)

end Template
end HandlerRegistry.Artifact
