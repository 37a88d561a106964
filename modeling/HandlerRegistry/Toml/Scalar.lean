import HandlerRegistry.Text.Numeral
import HandlerRegistry.Text.Split
import HandlerRegistry.Toml.Scan
import HandlerRegistry.Toml.Value

/-!
# Values written as a single word

Booleans, numbers, dates and times are words without quotes. A word is taken as a whole, up to a
character that cannot stand in one, and then read.

* `scalarScan`: a word and its value.
* `readInteger`, `readFloat`, `isDatetime`: the forms of words.
-/

namespace HandlerRegistry.Toml
set_option autoImplicit false

/-! ## Digits -/

/-- The digits of a run in which single underscores may separate digits. -/
def separated (isDigit : Char → Bool) (run : List Char) : Option (List Char) :=
  let parts := run.splitOn '_'
  if parts.all fun part => !part.isEmpty && part.all isDigit then some parts.flatten else none

/-- A sign in front of digits: whether it is a minus, and what follows it. -/
def signed : List Char → Bool × List Char
  | '-' :: rest => (true, rest)
  | '+' :: rest => (false, rest)
  | rest => (false, rest)

/-- The digits of a decimal number; only zero itself begins with a zero. -/
def decimalDigits (run : List Char) : Option (List Char) :=
  match separated Char.isDigit run with
  | some ['0'] => some ['0']
  | some ('0' :: _) => none
  | digits => digits

/-- The value of a digit of any base up to sixteen. -/
def digitValue (c : Char) : Nat :=
  if c.isDigit then c.toNat - 48 else if c.isLower then c.toNat - 87 else c.toNat - 55

def baseValue (base : Nat) (digits : List Char) : Nat :=
  digits.foldl (fun value c => value * base + digitValue c) 0

/-- Whether a character is a digit of a base. -/
def isDigitOf (base : Nat) (c : Char) : Bool :=
  (c.isDigit || ('a' ≤ c && c ≤ 'f') || ('A' ≤ c && c ≤ 'F')) && digitValue c < base

def readInBase (base : Nat) (run : List Char) : Option Value :=
  (separated (isDigitOf base) run).map fun digits => .integer (baseValue base digits)

/-! ## Numbers -/

def withSign (negative : Bool) (magnitude : Nat) : Int :=
  if negative then -(magnitude : Int) else magnitude

/-- An integer: hexadecimal, octal or binary without a sign, or decimal. -/
def readInteger : List Char → Option Value
  | '0' :: 'x' :: run => readInBase 16 run
  | '0' :: 'o' :: run => readInBase 8 run
  | '0' :: 'b' :: run => readInBase 2 run
  | word =>
    (decimalDigits (signed word).2).map fun digits =>
      .integer (withSign (signed word).1 (Nat.ofDigitChars 10 digits 0))

/-- The exponent of a float, after the letter that announces it. -/
def readExponent (run : List Char) : Option Int :=
  (separated Char.isDigit (signed run).2).map fun digits =>
    withSign (signed run).1 (Nat.ofDigitChars 10 digits 0)

/-- The digits of a float before its exponent, and the number of them after the point. -/
def readMantissa (run : List Char) : Option (List Char × Nat) :=
  match Text.splitFirst '.' run with
  | none => (decimalDigits run).map fun digits => (digits, 0)
  | some (whole, fraction) =>
    match decimalDigits whole, separated Char.isDigit fraction with
    | some digits, some places => some (digits ++ places, places.length)
    | _, _ => none

/-- A float written in digits: with a fraction, an exponent or both. -/
def readDigitalFloat (negative : Bool) (run : List Char) : Option Value :=
  let parts :=
    match run.span fun c => c != 'e' && c != 'E' with
    | (mantissa, []) => if mantissa.contains '.' then some (mantissa, some 0) else none
    | (mantissa, _ :: exponent) => some (mantissa, readExponent exponent)
  match parts with
  | some (mantissa, some exponent) =>
    (readMantissa mantissa).map fun read =>
      .float (.decimal ⟨negative, Nat.ofDigitChars 10 read.1 0, exponent - read.2⟩)
  | _ => none

def readFloat (word : List Char) : Option Value :=
  match signed word with
  | (negative, ['i', 'n', 'f']) => some (.float (.infinite negative))
  | (_, ['n', 'a', 'n']) => some (.float .notANumber)
  | (negative, run) => readDigitalFloat negative run

/-! ## Dates and times -/

/-- A number of two digits, and what follows it. -/
def twoDigits : List Char → Option (Nat × List Char)
  | a :: b :: rest =>
    if a.isDigit && b.isDigit then some (Nat.ofDigitChars 10 [a, b] 0, rest) else none
  | _ => none

/-- A mark, then a number of two digits in a range. -/
def marked (mark : Char) (low high : Nat) : List Char → Option (Nat × List Char)
  | c :: rest =>
    match twoDigits rest with
    | some (value, rest) =>
      if c = mark ∧ low ≤ value ∧ value ≤ high then some (value, rest) else none
    | none => none
  | [] => none

def daysIn (year month : Nat) : Nat :=
  if month = 2 then
    if year % 4 = 0 ∧ (year % 100 ≠ 0 ∨ year % 400 = 0) then 29 else 28
  else if month = 4 ∨ month = 6 ∨ month = 9 ∨ month = 11 then 30
  else 31

/-- What follows a date at the beginning of a word. -/
def afterDate? (word : List Char) : Option (List Char) := do
  let (century, rest) ← twoDigits word
  let (year, rest) ← twoDigits rest
  let (month, rest) ← marked '-' 1 12 rest
  let (_, rest) ← marked '-' 1 (daysIn (century * 100 + year) month) rest
  some rest

/-- What follows the fraction of a second, if there is one. -/
def afterFraction? : List Char → Option (List Char)
  | '.' :: rest =>
    if (rest.takeWhile Char.isDigit).isEmpty then none else some (rest.dropWhile Char.isDigit)
  | rest => some rest

/-- What follows a time at the beginning of a word. The seconds may be left out. -/
def afterTime? (word : List Char) : Option (List Char) := do
  let (hour, rest) ← twoDigits word
  if 23 < hour then none
  let (_, rest) ← marked ':' 0 59 rest
  match rest with
  | ':' :: _ => do
    let (_, rest) ← marked ':' 0 60 rest
    afterFraction? rest
  | _ => some rest

/-- Whether a text is the offset of a time zone, or no text at all. -/
def isOffset : List Char → Bool
  | [] => true
  | ['Z'] => true
  | ['z'] => true
  | c :: rest =>
    match twoDigits rest with
    | some (hours, rest) =>
      (c == '+' || c == '-') && hours ≤ 23 && (marked ':' 0 59 rest).any (·.2.isEmpty)
    | none => false

/-- Whether a character separates a date from a time. -/
def isTimeMark (c : Char) : Bool := c == 'T' || c == 't' || c == ' '

/-- Whether a word is a date, a time, or both. -/
def isDatetime (word : List Char) : Bool :=
  match afterDate? word with
  | some [] => true
  | some (mark :: rest) => isTimeMark mark && (afterTime? rest).any isOffset
  | none => (afterTime? word).any List.isEmpty

/-! ## Words -/

/-- Whether a character may stand in a word. -/
def isWordChar (c : Char) : Bool :=
  c.isAlphanum || c == '_' || c == '+' || c == '-' || c == '.' || c == ':'

/-- A word: a blank is part of it where it separates a date from a time. -/
def wordScan (input : List Char) : List Char × List Char :=
  let word := input.takeWhile isWordChar
  match afterDate? word, input.dropWhile isWordChar with
  | some [], ' ' :: c :: rest =>
    if c.isDigit then
      (word ++ ' ' :: (c :: rest).takeWhile isWordChar, (c :: rest).dropWhile isWordChar)
    else (word, ' ' :: c :: rest)
  | _, rest => (word, rest)

def readWord (word : List Char) : Option Value :=
  if word = ['t', 'r', 'u', 'e'] then some (.boolean true)
  else if word = ['f', 'a', 'l', 's', 'e'] then some (.boolean false)
  else match readInteger word with
    | some value => some value
    | none =>
      match readFloat word with
      | some value => some value
      | none => if isDatetime word then some .datetime else none

def scalarScan : Scan Value := fun input =>
  (readWord (wordScan input).1).map fun value => (value, (wordScan input).2)

end HandlerRegistry.Toml
