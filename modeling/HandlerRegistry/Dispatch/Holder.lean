import HandlerRegistry.Dispatch.Table

/-!
# The holder of one table

A program shares one table. The holder is empty until a table is installed or built, and never
changes after that.

* `Holder.install`: a table put in, if there is none.
* `Holder.getOrBuild`: the table, built if there is none.
-/

namespace HandlerRegistry.Dispatch
set_option autoImplicit false

variable {α : Type}

/-- Why a holder does not give a table. -/
inductive InstallError where
  | alreadyInstalled
  /-- The table could not be built. -/
  | allocation
deriving DecidableEq, Repr

def InstallError.message : InstallError → String
  | .alreadyInstalled => "handler table already installed"
  | .allocation => "failed to allocate handler table"

/-- A holder, empty or with its table. -/
structure Holder (α : Type) where
  table? : Option (Table α)

namespace Holder

def empty : Holder α := ⟨none⟩

/-- A table put into the holder; the one that it has already is never replaced. -/
def install (holder : Holder α) (table : Table α) : Except InstallError (Table α) × Holder α :=
  match holder.table? with
  | some _ => (.error .alreadyInstalled, holder)
  | none => (.ok table, ⟨some table⟩)

/-- What asking for the table, or else for a new one, leads to. -/
structure Built (α : Type) where
  /-- Whether the builder was run. -/
  ran : Bool
  result : Except InstallError (Table α)
  holder : Holder α

/-- The table of the holder, or one that is built now. A builder that fails leaves the holder
empty. -/
def getOrBuild (holder : Holder α) (build : Unit → Option (Table α)) : Built α :=
  match holder.table? with
  | some table => ⟨false, .ok table, holder⟩
  | none =>
    match build () with
    | some table => ⟨true, .ok table, ⟨some table⟩⟩
    | none => ⟨true, .error .allocation, holder⟩

end Holder
end HandlerRegistry.Dispatch
