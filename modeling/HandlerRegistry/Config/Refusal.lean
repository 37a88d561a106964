import HandlerRegistry.Capacity

/-!
# Why a configuration document is refused

A document is refused because it is no TOML, or because one of its keys cannot be used. Each cause
that names a key's fault has a text.
-/

namespace HandlerRegistry.Config
set_option autoImplicit false

/-- The cause for which a document is refused. -/
inductive Refusal where
  /-- The text is no TOML document, or is refused with a number in it that is out of range. -/
  | notToml
  | unknownField (name : String)
  /-- A path is not written as a string, but as the value described. -/
  | notAPath (found : String)
  | notACapacity
  | badCapacity (error : CapacityError)
  | unknownKind (name : String)
  /-- The kind is neither a string nor a table. -/
  | kindNotNamed
  | kindTableEmpty
  | kindTableCrowded
  /-- The kind is named with a table that is not empty. -/
  | kindHoldsEntries
  /-- The kind is named with an array that is not empty. -/
  | kindHoldsItems
  /-- The kind is named with a single value of the type described. -/
  | kindHoldsValue (found : String)
deriving DecidableEq

/-- The account of a refusal; a text that is no TOML is refused without one. -/
def Refusal.message? : Refusal → Option String
  | .notToml => none
  | .unknownField name =>
    some ("unknown field `" ++ name ++
      "`, expected one of `input-dir`, `output`, `kind`, `capacity`")
  | .notAPath found => some ("invalid type: " ++ found ++ ", expected path string")
  | .notACapacity => some "data did not match any variant of untagged enum CapacityRepr"
  | .badCapacity error => some error.message
  | .unknownKind name =>
    some ("unknown variant `" ++ name ++ "`, expected `c-header` or `rust-module`")
  | .kindNotNamed => some "wanted string or table"
  | .kindTableEmpty => some "wanted exactly 1 element, found 0 elements"
  | .kindTableCrowded => some "wanted exactly 1 element, more than 1 element"
  | .kindHoldsEntries => some "expected empty table"
  | .kindHoldsItems => some "expected empty array"
  | .kindHoldsValue found => some ("expected table, found " ++ found)

end HandlerRegistry.Config
