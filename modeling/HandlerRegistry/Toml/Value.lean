import HandlerRegistry.Decimal.Double

/-!
# Values of a TOML document

A value is a string, an integer of any size, a float, a boolean, a date or time, an array or a
table. Arrays and tables remember how they were written, because that decides what later lines of
the document may add to them.

* `Value.describe`: what a value is called where a path was expected.
* `Value.isExcessive`: whether a value holds a number that its type cannot represent.
-/

namespace HandlerRegistry.Toml
set_option autoImplicit false

/-- How a table came to be. -/
inductive TableForm where
  /-- Written in braces; nothing can be added to it. -/
  | inline
  /-- Named by a header of its own, or the root, or an element of an array of tables. -/
  | header
  /-- Only part of the path of a header. -/
  | implied
  /-- Only part of a dotted key. -/
  | dotted
deriving DecidableEq, Repr

/-- How an array came to be. -/
inductive ArrayForm where
  /-- Written in brackets; nothing can be added to it. -/
  | literal
  /-- Named by headers in double brackets, each of which adds a table. -/
  | tables
deriving DecidableEq, Repr

/-- A float as it is written. -/
inductive Real where
  | infinite (negative : Bool)
  | notANumber
  | decimal (numeral : Decimal.Numeral)
deriving DecidableEq, Repr

/-- The number that a float stands for. -/
def Real.value : Real → Decimal.Double
  | .infinite negative => .infinite negative
  | .notANumber => .notANumber
  | .decimal n => Decimal.Double.nearest n

/-- Whether a float is written in digits, but larger than every finite number. -/
def Real.overflows : Real → Bool
  | .decimal n =>
    match Decimal.Double.nearest n with
    | .infinite _ => true
    | _ => false
  | _ => false

/-- A value of a document. -/
inductive Value where
  | string (text : String)
  | integer (value : Int)
  | float (written : Real)
  | boolean (value : Bool)
  | datetime
  | array (form : ArrayForm) (items : List Value)
  | table (form : TableForm) (entries : List (String × Value))

/-- The entries of a table, in the order in which they were written. -/
abbrev Entries := List (String × Value)

namespace Value

/-- What a value is called where a path was expected. -/
def describe : Value → String
  | .string text => "string \"" ++ text ++ "\""
  | .integer value => "integer `" ++ toString value ++ "`"
  | .float written => "floating point `" ++ written.value.text ++ "`"
  | .boolean value => "boolean `" ++ (if value then "true" else "false") ++ "`"
  | .datetime => "map"
  | .array _ _ => "sequence"
  | .table _ _ => "map"

def typeName : Value → String
  | .string _ => "string"
  | .integer _ => "integer"
  | .float _ => "float"
  | .boolean _ => "boolean"
  | .datetime => "datetime"
  | .array _ _ => "array"
  | .table _ _ => "table"

/-- Whether an integer fits 64 bits with a sign. -/
def fitsInt64 (value : Int) : Bool :=
  -0x8000000000000000 ≤ value && value < 0x8000000000000000

mutual

/-- Whether a value holds a number that its type cannot represent: an integer beyond 64 bits, or a
numeral beyond all floats. -/
def isExcessive : Value → Bool
  | .integer value => !fitsInt64 value
  | .float written => written.overflows
  | .array _ items => anyExcessive items
  | .table _ entries => anyEntryExcessive entries
  | _ => false

/-- Whether one of some values holds such a number. -/
def anyExcessive : List Value → Bool
  | [] => false
  | value :: rest => isExcessive value || anyExcessive rest

/-- Whether the value of one of some entries holds such a number. -/
def anyEntryExcessive : List (String × Value) → Bool
  | [] => false
  | (_, value) :: rest => isExcessive value || anyEntryExcessive rest

end

end Value
end HandlerRegistry.Toml
