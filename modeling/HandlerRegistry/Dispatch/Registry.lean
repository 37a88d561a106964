import HandlerRegistry.Dispatch.Holder
import HandlerRegistry.Dispatch.Protocols

/-!
# The built-in registry

The handlers of this library under their names, in a table that is built on first use.
-/

namespace HandlerRegistry.Dispatch.Registry
set_option autoImplicit false

def builtIn : List (String × Handler) :=
  [("ftp", Protocols.ftp), ("http", Protocols.http), ("https", Protocols.https)]

def handlerNames : List String := builtIn.map Prod.fst

/-- A new table of the built-in handlers, with exactly the slots they need. -/
def collect : Option (Table Handler) :=
  (Table.new? (UInt64.ofNat builtIn.length)).map fun table => (table.insertAll builtIn).2

/-- The shared table of the built-in handlers. -/
def handlers : Except InstallError (Table Handler) :=
  (Holder.empty.getOrBuild fun _ => collect).result

def lookup (name : String) : Option Handler :=
  match handlers with
  | .ok table => table.get? name
  | .error _ => none

end HandlerRegistry.Dispatch.Registry
