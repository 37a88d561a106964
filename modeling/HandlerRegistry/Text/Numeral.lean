/-!
# Numbers written in decimal digits

* `readDigits`: the value of a non-empty run of ASCII digits; leading zeros are allowed.
* `word64?`: a number that fits 64 bits.
-/

namespace HandlerRegistry.Text
set_option autoImplicit false

/-- The value of a non-empty run of ASCII digits. -/
def readDigits (digits : List Char) : Option Nat :=
  if !digits.isEmpty && digits.all Char.isDigit then some (Nat.ofDigitChars 10 digits 0) else none

/-- The 64-bit word of a number that has one. -/
def word64? (n : Nat) : Option UInt64 := if n < UInt64.size then some (UInt64.ofNat n) else none

theorem readDigits_toDigits (n : Nat) : readDigits (Nat.toDigits 10 n) = some n := by
  have h1 : (Nat.toDigits 10 n).isEmpty = false := by simp [Nat.toDigits_ne_nil]
  have h2 : (Nat.toDigits 10 n).all Char.isDigit = true :=
    List.all_eq_true.mpr fun c hc => Nat.isDigit_of_mem_toDigits (by decide) (by decide) hc
  simp [readDigits, h1, h2]

/-- A written number holds no character that is not a digit. -/
theorem not_mem_repr {c : Char} (h : c.isDigit = false) (n : Nat) : c ∉ n.repr.toList := by
  intro hm
  rw [Nat.toList_repr] at hm
  rw [Nat.isDigit_of_mem_toDigits (by decide) (by decide) hm] at h
  cases h

theorem word64?_toNat (w : UInt64) : word64? w.toNat = some w := by
  rw [word64?, if_pos w.toNat_lt_size, UInt64.ofNat_toNat]

end HandlerRegistry.Text
