import HandlerRegistry.Text.Numeral

/-!
# Capacity of the handler table

The number of slots that the generated routine reserves: a fixed number, or as many as there are
handlers.

* `Capacity.resolve`: the slots for a number of handlers, never fewer than the handlers.
* `Capacity.parse`, `Capacity.text`: the form in which a capacity is written.
-/

namespace HandlerRegistry
set_option autoImplicit false

/-- How many slots the table gets. -/
inductive Capacity where
  /-- A constant number of slots. -/
  | fixed (slots : UInt64)
  /-- As many slots as handlers, and at least one. -/
  | fromCount
deriving DecidableEq, Repr

/-- A text that writes no capacity. -/
structure CapacityError where
  found : String
deriving DecidableEq, Repr

def CapacityError.message (error : CapacityError) : String :=
  "expected a slot count or 'auto', got '" ++ error.found ++ "'"

namespace Capacity

/-- The capacity used when none is given. -/
def standard : Capacity := .fixed 64

/-- The slots for a number of handlers. A fixed capacity is widened until every handler fits. -/
def resolve : Capacity → Nat → Nat
  | .fixed slots, count => max slots.toNat count
  | .fromCount, count => max count 1

/-- The digits of a slot count: one plus sign in front of them is ignored. -/
def unsigned : List Char → List Char
  | '+' :: digits => digits
  | digits => digits

/-- The number of slots that a text writes. -/
def slots? (text : List Char) : Option UInt64 :=
  (Text.readDigits (unsigned text)).bind Text.word64?

/-- The capacity that a text writes: `auto` in any ASCII case, or a slot count. -/
def parse (text : String) : Except CapacityError Capacity :=
  if text.toList.map Char.toLower = ['a', 'u', 't', 'o'] then .ok .fromCount
  else match slots? text.toList with
    | some slots => .ok (.fixed slots)
    | none => .error ⟨text⟩

def text : Capacity → String
  | .fixed slots => slots.toNat.repr
  | .fromCount => "auto"

theorem le_resolve (capacity : Capacity) (count : Nat) : count ≤ capacity.resolve count := by
  cases capacity with
  | fixed slots => exact Nat.le_max_right _ _
  | fromCount => exact Nat.le_max_left _ _

end Capacity
end HandlerRegistry
