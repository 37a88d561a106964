import HandlerRegistry.CommandLine.Arguments
import HandlerRegistry.Config.Document
import HandlerRegistry.Generate

/-!
# The command

The command reads its arguments, loads the configuration file that they name, lets the other
arguments override it, and runs the generator.

* `Settings.resolve`: the configuration that the settings make.
* `report`: what the command says about a failed run.
* `run`: the whole command.
-/

namespace HandlerRegistry.CommandLine
set_option autoImplicit false

/-- A configuration with the settings put over it. -/
def Settings.override (settings : Settings) (config : Config) : Config where
  inputDir := settings.input.getD config.inputDir
  output := settings.output.getD config.output
  kind := settings.kind.or config.kind
  capacity := settings.capacity.getD config.capacity

/-- The configuration that the settings make: the standard one, or that of the file they name, with
the other settings put over it. -/
def Settings.resolve (settings : Settings) (tree : FileTree) : Except Failure Config :=
  match settings.config with
  | some path => (Config.load tree path).map settings.override
  | none => .ok (settings.override .standard)

/-! ## Reports -/

/-- A text whose further lines are indented. -/
def indentLines (indent text : String) : String :=
  String.ofList (text.toList.flatMap fun c => if c = '\n' then '\n' :: indent.toList else [c])

/-- The causes of a failure: a single one is indented, several are numbered. A refused
configuration is the first of several causes, and the report ends with it. -/
def causes (failure : Failure) : String :=
  let first := "    0: " ++ indentLines "       " failure.message
  match failure, failure.ioCause? with
  | .invalidConfig _ _, _ => first
  | _, some cause => first ++ "\n    1: " ++ cause.message ++ "\n"
  | _, none => "    " ++ indentLines "    " failure.message ++ "\n"

/-- What the command says about a failed run. -/
def report (failure : Failure) : String :=
  "Error: " ++ failure.stage.name ++ " failed\n\nCaused by:\n" ++ causes failure

/-! ## The command -/

/-- How the command ends. -/
structure Exit where
  code : Nat
  /-- The report of a failed run. -/
  report : Option String
deriving DecidableEq, Repr

/-- The end of a command whose arguments are not accepted. -/
def Exit.ofFault : Fault → Exit
  | .helpRequested => ⟨0, none⟩
  | _ => ⟨2, none⟩

/-- The end of a command whose run fails. -/
def Exit.ofFailure (failure : Failure) : Exit := ⟨1, some (CommandLine.report failure)⟩

/-- The command: how it ends, and the tree afterwards. -/
def run (arguments : List Argument) (tree : FileTree) : Exit × FileTree :=
  match parseArguments arguments with
  | .error fault => (.ofFault fault, tree)
  | .ok settings =>
    match settings.resolve tree with
    | .error failure => (.ofFailure failure, tree)
    | .ok config =>
      match generate config tree with
      | (.error failure, after) => (.ofFailure failure, after)
      | (.ok _, after) => (⟨0, none⟩, after)

end HandlerRegistry.CommandLine
