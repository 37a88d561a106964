/-!
# Decimal numerals as binary floating point numbers

A decimal numeral stands for the nearest binary64 number; a number is written with the fewest
digits that stand for it again. All arithmetic is on natural numbers.

* `Double.nearest`: the number nearest to a numeral, ties to the even significand.
* `Double.shortest`: the fewest digits within the interval of reals that round to a number, and of
  those the nearest; a tie goes away from zero.
* `Double.text`: these digits in positional notation.
-/

namespace HandlerRegistry.Decimal
set_option autoImplicit false

/-- A numeral: `digits * 10 ^ exponent`, with a sign. -/
structure Numeral where
  negative : Bool
  digits : Nat
  exponent : Int
deriving DecidableEq, Repr

/-- A binary64 number. The finite ones are `significand * 2 ^ exponent`, with a sign. -/
inductive Double where
  | finite (negative : Bool) (significand : Nat) (exponent : Int)
  | infinite (negative : Bool)
  | notANumber
deriving DecidableEq, Repr

namespace Double

/-- The least exponent of a number. -/
def minExponent : Int := -1074

/-- The nearest natural number to a quotient, ties to even. -/
def roundDiv (numerator denominator : Nat) : Nat :=
  let quotient := numerator / denominator
  let rest := 2 * (numerator % denominator)
  if rest < denominator then quotient
  else if denominator < rest then quotient + 1
  else quotient + quotient % 2

/-- The power of a base as a numerator. -/
def powUp (base : Nat) (exponent : Int) : Nat := base.pow exponent.toNat

/-- The power of a base as a denominator. -/
def powDown (base : Nat) (exponent : Int) : Nat := base.pow (-exponent).toNat

/-- The exponent of the highest binary digit of a positive quotient. -/
def floorLog2 (numerator denominator : Nat) : Int :=
  let estimate : Int := (Nat.log2 numerator : Int) - Nat.log2 denominator
  if denominator * powUp 2 estimate ≤ numerator * powDown 2 estimate then estimate
  else estimate - 1

/-- The number nearest to a positive quotient. A significand has at most 53 binary digits, so one that
is rounded up to the next power of two is halved. -/
def ofQuotient (negative : Bool) (numerator denominator : Nat) : Double :=
  let exponent := max (floorLog2 numerator denominator - 52) minExponent
  let significand := roundDiv (numerator * powDown 2 exponent) (denominator * powUp 2 exponent)
  if powUp 2 1024 ≤ significand * powUp 2 exponent then .infinite negative
  else if significand = powUp 2 53 then .finite negative (powUp 2 52) (exponent + 1)
  else .finite negative significand exponent

/-- The number nearest to a numeral. Numerals of a magnitude far outside the range of the numbers
are settled by their digit count. -/
def nearest (numeral : Numeral) : Double :=
  let magnitude : Int := (Nat.toDigits 10 numeral.digits).length + numeral.exponent
  if numeral.digits = 0 ∨ magnitude < -330 then .finite numeral.negative 0 minExponent
  else if 330 < magnitude then .infinite numeral.negative
  else ofQuotient numeral.negative (numeral.digits * powUp 10 numeral.exponent)
    (powDown 10 numeral.exponent)

/-! ## The fewest digits -/

/-- The number of digits before the point of a positive quotient; negative if zeros follow it. -/
def digitsBeforePoint (numerator denominator : Nat) : Int :=
  if denominator ≤ numerator then (Nat.toDigits 10 (numerator / denominator)).length
  else 1 - (Nat.toDigits 10 ((denominator - 1) / numerator)).length

/-- Whether `a * 10 ^ e` is below `b * 2 ^ f`. -/
def decimalBelow (a : Nat) (e : Int) (b : Nat) (f : Int) : Bool :=
  a * powUp 10 e * powDown 2 f < b * powUp 2 f * powDown 10 e

/-- Whether `b * 2 ^ f` is below `a * 10 ^ e`. -/
def decimalAbove (a : Nat) (e : Int) (b : Nat) (f : Int) : Bool :=
  b * powUp 2 f * powDown 10 e < a * powUp 10 e * powDown 2 f

/-- Whether `a * 10 ^ e` rounds to the number of a significand and exponent. The ends of the
interval, halfway to the neighbours, belong to it if the significand is even. -/
def readsBack (significand : Nat) (exponent : Int) (a : Nat) (e : Int) : Bool :=
  let low := if significand = powUp 2 52 ∧ minExponent < exponent then 4 * significand - 1
    else 4 * significand - 2
  let high := 4 * significand + 2
  if significand % 2 = 0 then
    !decimalBelow a e low (exponent - 2) && !decimalAbove a e high (exponent - 2)
  else decimalAbove a e low (exponent - 2) && decimalBelow a e high (exponent - 2)

/-- A numeral on the grid of a number of digits; the end of the grid is a power of ten, and has one
digit. -/
def onGrid (count : Nat) (a : Nat) (e : Int) : Nat × Int :=
  if a = powUp 10 count then (1, e + count) else (a, e)

/-- The numeral of a given number of digits that stands for a number, if there is one: of the two
neighbours on the grid, the nearer, and of two equally near ones the greater. -/
def withDigits (significand : Nat) (exponent : Int) (count : Nat) : Option (Nat × Int) :=
  let numerator := significand * powUp 2 exponent
  let denominator := powDown 2 exponent
  let e := digitsBeforePoint numerator denominator - count
  let below := numerator * powDown 10 e / (denominator * powUp 10 e)
  let above := below + 1
  match readsBack significand exponent below e, readsBack significand exponent above e with
  | true, true =>
    -- the nearer one: the midpoint of the two is compared with the number
    if decimalAbove (2 * below + 1) e (2 * significand) exponent then some (below, e)
    else some (onGrid count above e)
  | true, false => some (below, e)
  | false, true => some (onGrid count above e)
  | false, false => none

/-- The digits and the exponent of the shortest numeral for a positive number. -/
def shortest (significand : Nat) (exponent : Int) : Nat × Int :=
  ((List.range 17).findSome? fun count => withDigits significand exponent (count + 1)).getD (0, 0)

/-! ## Positional notation -/

/-- Digits with a decimal exponent, in positional notation and with at least one digit on either
side of the point. -/
def positional (digits : List Char) (exponent : Int) : String :=
  if 0 ≤ exponent then
    String.ofList (digits ++ List.replicate exponent.toNat '0' ++ ['.', '0'])
  else
    let places := (-exponent).toNat
    let padded := List.replicate (places + 1 - digits.length) '0' ++ digits
    String.ofList (padded.take (padded.length - places) ++
      '.' :: padded.drop (padded.length - places))

/-- The text of a number: the fewest digits, never with an exponent. -/
def text : Double → String
  | .notANumber => "NaN"
  | .infinite negative => (if negative then "-" else "") ++ "inf"
  | .finite negative significand exponent =>
    (if negative then "-" else "") ++
      if significand = 0 then "0.0"
      else
        let numeral := shortest significand exponent
        positional (Nat.toDigits 10 numeral.1) numeral.2

end Double
end HandlerRegistry.Decimal
