/-!
# Bytes in hexadecimal digits

Two digits for each byte: bytes are written in lower case and read in either case.
-/

namespace HandlerRegistry.Text
set_option autoImplicit false

def hexDigit? (c : Char) : Option Nat :=
  if '0' ≤ c ∧ c ≤ '9' then some (c.toNat - 48)
  else if 'a' ≤ c ∧ c ≤ 'f' then some (c.toNat - 87)
  else if 'A' ≤ c ∧ c ≤ 'F' then some (c.toNat - 55)
  else none

def readHex : List Char → Option (List UInt8)
  | [] => some []
  | high :: low :: rest =>
    match hexDigit? high, hexDigit? low, readHex rest with
    | some a, some b, some bytes => some (UInt8.ofNat (16 * a + b) :: bytes)
    | _, _, _ => none
  | _ => none

def writeHex (bytes : List UInt8) : List Char :=
  bytes.flatMap fun b => [Nat.digitChar (b.toNat / 16), Nat.digitChar (b.toNat % 16)]

end HandlerRegistry.Text
