/-!
# Texts as bytes

File names, file contents and command line words are byte strings; a text is one of those that is
valid UTF-8. Decoding is a machine with one state per byte boundary.

* `encode`: the bytes of a text. Texts are ordered by these bytes wherever they are sorted.
* `scan`: the characters that a byte string spells, with a `none` for every maximal piece that can
  be no part of a character.
* `decode?`: the text a byte string spells, if all of it does.
* `lossy`: the text shown for a byte string, with U+FFFD for each piece that spells nothing.
-/

namespace HandlerRegistry.Utf8
set_option autoImplicit false

/-- The UTF-8 bytes of a text. -/
def encode (text : String) : List UInt8 :=
  text.toList.flatMap String.utf8EncodeChar

/-! ## The decoding machine -/

/-- An inclusive range of bytes. -/
structure Range where
  low : UInt8
  high : UInt8
deriving DecidableEq

def Range.holds (r : Range) (b : UInt8) : Bool := r.low ≤ b && b ≤ r.high

def continuation : Range := ⟨0x80, 0xBF⟩

/-- Where the machine stands: between two characters, or inside one of which `value` is known. The
next byte must lie in `next`, and `later` more continuation bytes follow it. -/
inductive State where
  | idle
  | inside (value : Nat) (next : Range) (later : Nat)
deriving DecidableEq

/-- What a lead byte starts. Overlong forms, surrogates and code points beyond U+10FFFF are refused
by narrowing the range of the second byte. -/
def lead (b : UInt8) : Option State :=
  if Range.holds ⟨0xC2, 0xDF⟩ b then some (.inside (b.toNat - 0xC0) continuation 0)
  else if b = 0xE0 then some (.inside 0 ⟨0xA0, 0xBF⟩ 1)
  else if b = 0xED then some (.inside 0xD ⟨0x80, 0x9F⟩ 1)
  else if Range.holds ⟨0xE1, 0xEF⟩ b then some (.inside (b.toNat - 0xE0) continuation 1)
  else if b = 0xF0 then some (.inside 0 ⟨0x90, 0xBF⟩ 2)
  else if b = 0xF4 then some (.inside 4 ⟨0x80, 0x8F⟩ 2)
  else if Range.holds ⟨0xF1, 0xF3⟩ b then some (.inside (b.toNat - 0xF0) continuation 2)
  else none

/-- One byte read between two characters. -/
def begin (b : UInt8) : List (Option Char) × State :=
  if b < 0x80 then ([some (Char.ofNat b.toNat)], .idle)
  else match lead b with
    | some state => ([], state)
    | none => ([none], .idle)

/-- One byte read in any state: what it completes, and the state after it. A byte that cannot
continue the character begun ends that piece and is read afresh. -/
def step : State → UInt8 → List (Option Char) × State
  | .idle, b => begin b
  | .inside value next later, b =>
    if next.holds b then
      let value := value * 64 + (b.toNat - 0x80)
      match later with
      | 0 => ([some (Char.ofNat value)], .idle)
      | later + 1 => ([], .inside value continuation later)
    else (none :: (begin b).1, (begin b).2)

/-- The pieces of a byte string, read from a given state. -/
def scanFrom : State → List UInt8 → List (Option Char)
  | .idle, [] => []
  | .inside _ _ _, [] => [none]
  | state, b :: rest => (step state b).1 ++ scanFrom (step state b).2 rest

/-- The pieces of a byte string: a character, or `none` for a maximal piece that spells none. -/
def scan (bytes : List UInt8) : List (Option Char) := scanFrom .idle bytes

/-! ## Reading a byte string -/

/-- The text that a byte string spells, if it is valid. -/
def decode? (bytes : List UInt8) : Option String :=
  ((scan bytes).mapM id).map String.ofList

/-- The text shown for a byte string: each piece that spells nothing becomes U+FFFD. -/
def lossy (bytes : List UInt8) : String :=
  String.ofList ((scan bytes).map (·.getD '\uFFFD'))

/-! ## Order of texts -/

/-- Texts are compared byte by byte. -/
def compare (a b : String) : Ordering :=
  if encode a < encode b then .lt else if encode a = encode b then .eq else .gt

/-- Whether a text does not come after another. -/
def le (a b : String) : Bool := compare a b != .gt

theorem encode_append (a b : String) : encode (a ++ b) = encode a ++ encode b := by
  simp [encode]

theorem encode_ofList (l : List Char) :
    encode (String.ofList l) = l.flatMap String.utf8EncodeChar := by
  simp [encode]

end HandlerRegistry.Utf8
