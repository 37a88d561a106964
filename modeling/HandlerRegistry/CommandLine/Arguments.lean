import HandlerRegistry.Artifact.Kind
import HandlerRegistry.Capacity

/-!
# Command line arguments

The arguments are read from left to right, and the first fault decides. An option with a value may
be written as one argument (`--name=value`, `-nvalue`, `-n=value`) or as two; its value is checked
when the next known option is read, or at the end.

* `Settings`: what the arguments set.
* `Reading.step`: one argument read.
* `parseArguments`: the settings that all arguments make, or the first fault.
-/

namespace HandlerRegistry.CommandLine
set_option autoImplicit false

/-- An argument, as the bytes that were given. -/
abbrev Argument := List UInt8

/-- An option that takes a value. -/
inductive Field where
  | config
  | input
  | output
  | kind
  | capacity
deriving DecidableEq, Repr

/-- An option. -/
inductive Flag where
  | valued (field : Field)
  | verbose
  | help
deriving DecidableEq, Repr

/-- Why arguments are not accepted. -/
inductive Fault where
  /-- An argument that is neither an option nor the value of one. -/
  | unknownArgument
  /-- A value that is missing, empty where a path is wanted, or no word for a kind. -/
  | invalidValue
  | invalidCapacity
  /-- An option given twice. -/
  | repeatedOption
  /-- A value for an option that takes none. -/
  | unexpectedValue
  | invalidUtf8
  /-- Not a fault, but the end of the reading: help was asked for. -/
  | helpRequested
deriving DecidableEq, Repr

/-! ## Names of options -/

def Field.longName : Field → String
  | .config => "config"
  | .input => "input"
  | .output => "output"
  | .kind => "kind"
  | .capacity => "capacity"

def Field.all : List Field := [.config, .input, .output, .kind, .capacity]

def Flag.longName : Flag → String
  | .valued field => field.longName
  | .verbose => "verbose"
  | .help => "help"

/-- The letter of an option; the capacity has none. -/
def Flag.letter? : Flag → Option Char
  | .valued .config => some 'c'
  | .valued .input => some 'i'
  | .valued .output => some 'o'
  | .valued .kind => some 'k'
  | .valued .capacity => none
  | .verbose => some 'v'
  | .help => some 'h'

def Flag.all : List Flag := Field.all.map .valued ++ [.verbose, .help]

/-- The option of a long name, which has to be written in full. -/
def Flag.ofLongName? (name : List UInt8) : Option Flag :=
  Flag.all.find? fun flag => Utf8.encode flag.longName == name

def Flag.ofLetter? (letter : UInt8) : Option Flag :=
  Flag.all.find? fun flag => flag.letter?.any fun c => c.toNat == letter.toNat

/-! ## Settings -/

/-- What the arguments set. -/
structure Settings where
  config : Option Path
  input : Option Path
  output : Option Path
  kind : Option Artifact.Kind
  capacity : Option Capacity
  verbose : Bool
deriving DecidableEq

namespace Settings

def unset : Settings where
  config := none
  input := none
  output := none
  kind := none
  capacity := none
  verbose := false

def isSet (settings : Settings) : Field → Bool
  | .config => settings.config.isSome
  | .input => settings.input.isSome
  | .output => settings.output.isSome
  | .kind => settings.kind.isSome
  | .capacity => settings.capacity.isSome

/-- The path that a value is; it must not be empty. -/
def pathValue (value : List UInt8) : Except Fault Path :=
  if value = [] then .error .invalidValue else .ok ⟨value⟩

def kindValue (value : List UInt8) : Except Fault Artifact.Kind :=
  match (Utf8.decode? value).bind Artifact.Kind.ofWord? with
  | some kind => .ok kind
  | none => .error .invalidValue

def capacityValue (value : List UInt8) : Except Fault Capacity :=
  match Utf8.decode? value with
  | none => .error .invalidUtf8
  | some text =>
    match Capacity.parse text with
    | .ok capacity => .ok capacity
    | .error _ => .error .invalidCapacity

/-- The settings with the value of a field. -/
def set (settings : Settings) (field : Field) (value : List UInt8) : Except Fault Settings :=
  match field with
  | .config => (pathValue value).map fun path => { settings with config := some path }
  | .input => (pathValue value).map fun path => { settings with input := some path }
  | .output => (pathValue value).map fun path => { settings with output := some path }
  | .kind => (kindValue value).map fun kind => { settings with kind := some kind }
  | .capacity =>
    (capacityValue value).map fun capacity => { settings with capacity := some capacity }

/-- The settings with a field given: a value is needed, and the field must not be set already. -/
def give (settings : Settings) (field : Field) (value : Option (List UInt8)) :
    Except Fault Settings :=
  match value with
  | none => .error .invalidValue
  | some value => if settings.isSet field then .error .repeatedOption else settings.set field value

end Settings

/-! ## Reading -/

/-- What has been read of the arguments. -/
structure Reading where
  settings : Settings
  /-- The field named last, with its value once that has been read; it is not yet set. -/
  pending : Option (Field × Option (List UInt8))
  /-- Whether two dashes have ended the options. -/
  ended : Bool

namespace Reading

def start : Reading := ⟨.unset, none, false⟩

/-- The pending field set. -/
def settle (reading : Reading) : Except Fault Reading :=
  match reading.pending with
  | none => .ok reading
  | some (field, value) =>
    (reading.settings.give field value).map fun settings => ⟨settings, none, reading.ended⟩

/-- A field named with its value in the same argument, or with none. -/
def field (reading : Reading) (field : Field) (value : Option (List UInt8)) :
    Except Fault Reading :=
  match reading.settle with
  | .error fault => .error fault
  | .ok settled =>
    match value with
    | none => .ok { settled with pending := some (field, none) }
    | some value =>
      (settled.settings.give field (some value)).map fun settings =>
        { settled with settings := settings }

def verbose (reading : Reading) : Except Fault Reading :=
  match reading.settle with
  | .error fault => .error fault
  | .ok settled =>
    if settled.settings.verbose then .error .repeatedOption
    else .ok { settled with settings := { settled.settings with verbose := true } }

def help (reading : Reading) : Except Fault Reading :=
  match reading.settle with
  | .error fault => .error fault
  | .ok _ => .error .helpRequested

/-- An option by its long name, with the value after an equals sign. -/
def long (reading : Reading) (name : List UInt8) (value : Option (List UInt8)) :
    Except Fault Reading :=
  match Flag.ofLongName? name, value with
  | none, _ => .error .unknownArgument
  | some (.valued f), value => reading.field f value
  | some .verbose, none => reading.verbose
  | some .help, none => reading.help
  | some _, some _ => .error .unexpectedValue

/-- The byte between an option and its value. -/
def equalsSign : UInt8 := 0x3D

def dash : UInt8 := 0x2D

/-- A value that follows a letter: an equals sign before it is dropped. -/
def afterLetter : List UInt8 → Option (List UInt8)
  | [] => none
  | c :: rest => some (if c = equalsSign then rest else c :: rest)

/-- Options by their letters. The first one that takes a value takes all that follows. -/
def letters (reading : Reading) : List UInt8 → Except Fault Reading
  | [] => .ok reading
  | letter :: rest =>
    match Flag.ofLetter? letter with
    | none => .error .unknownArgument
    | some (.valued f) => reading.field f (afterLetter rest)
    | some .verbose =>
      match reading.verbose with
      | .error fault => .error fault
      | .ok reading => letters reading rest
    | some .help => reading.help

/-- An argument that is no option: the value of the pending field, if that waits for one. -/
def plain (reading : Reading) (argument : Argument) : Except Fault Reading :=
  match reading.pending with
  | some (field, none) => .ok { reading with pending := some (field, some argument) }
  | _ => .error .unknownArgument

/-- A long option split at its first equals sign. -/
def splitLong (body : List UInt8) : List UInt8 × Option (List UInt8) :=
  match Text.splitFirst equalsSign body with
  | some (name, value) => (name, some value)
  | none => (body, none)

def step (reading : Reading) (argument : Argument) : Except Fault Reading :=
  if reading.ended then .error .unknownArgument
  else if argument = [dash, dash] then .ok { reading with ended := true }
  else match argument with
    | a :: b :: rest =>
      if a = dash ∧ b = dash then reading.long (splitLong rest).1 (splitLong rest).2
      else if a = dash then reading.letters (b :: rest)
      else reading.plain argument
    | _ => reading.plain argument

def steps (reading : Reading) : List Argument → Except Fault Reading
  | [] => .ok reading
  | argument :: rest =>
    match reading.step argument with
    | .error fault => .error fault
    | .ok reading => steps reading rest

end Reading

def parseArguments (arguments : List Argument) : Except Fault Settings :=
  match Reading.start.steps arguments with
  | .error fault => .error fault
  | .ok reading => reading.settle.map Reading.settings

end HandlerRegistry.CommandLine
