import HandlerRegistry.Text.Hex
import HandlerRegistry.Text.Quoted
import Mathlib.Tactic.SplitIfs

/-! # String literals of Rust

A reader of string literals by the rules of the language: all escapes, underscores between the
digits of a code point, line ends that a backslash hides together with the blanks after them. It
stops at the quote that closes the literal. Whatever a quoted text holds, it is a literal of that
text and ends at its own last quote (`literal?_quoted`). -/

namespace HandlerRegistry.Text
set_option autoImplicit false

/-! ## The reader -/

/-- Where the reader stands in a literal. -/
inductive Reading where
  /-- Between two characters; blanks are skipped after a hidden line end. -/
  | text (skipping : Bool)
  /-- After a backslash. -/
  | escape
  /-- After `\x`. -/
  | high
  /-- After `\x` and a digit. -/
  | low (high : Nat)
  /-- After `\u`. -/
  | brace
  /-- In the braces of a code point, after some digits. -/
  | point (count value : Nat)

/-- Whether a character is skipped after a hidden line end. -/
def isLiteralBlank (c : Char) : Bool := c == ' ' || c == '\t' || c == '\n' || c == '\r'

/-- The character that a single one stands for after a backslash. -/
def escaped? (c : Char) : Option Char :=
  if c = 'n' then some '\n'
  else if c = 'r' then some '\r'
  else if c = 't' then some '\t'
  else if c = '0' then some '\x00'
  else if c = '\\' ∨ c = '\'' ∨ c = '"' then some c
  else none

def prepend (c : Char) (read : Option (List Char × List Char)) : Option (List Char × List Char) :=
  read.map fun parts => (c :: parts.1, parts.2)

/-- The characters of a literal that is under way, and what follows its closing quote. -/
def literalFrom : Reading → List Char → Option (List Char × List Char)
  | _, [] => none
  | .text skipping, c :: rest =>
    if skipping && isLiteralBlank c then literalFrom (.text true) rest
    else if c = '"' then some ([], rest)
    else if c = '\\' then literalFrom .escape rest
    else if c = '\r' then none
    else prepend c (literalFrom (.text false) rest)
  | .escape, c :: rest =>
    if c = 'x' then literalFrom .high rest
    else if c = 'u' then literalFrom .brace rest
    else if c = '\n' then literalFrom (.text true) rest
    else (escaped? c).bind fun found => prepend found (literalFrom (.text false) rest)
  | .high, c :: rest =>
    (hexDigit? c).bind fun digit => if digit < 8 then literalFrom (.low digit) rest else none
  | .low high, c :: rest =>
    (hexDigit? c).bind fun digit =>
      prepend (Char.ofNat (16 * high + digit)) (literalFrom (.text false) rest)
  | .brace, c :: rest => if c = '\x7b' then literalFrom (.point 0 0) rest else none
  | .point count value, c :: rest =>
    if c = '\x7d' then
      if count ≠ 0 ∧ value.isValidChar then
        prepend (Char.ofNat value) (literalFrom (.text false) rest)
      else none
    else if c = '_' then if count ≠ 0 then literalFrom (.point count value) rest else none
    else (hexDigit? c).bind fun digit =>
      if count < 6 then literalFrom (.point (count + 1) (16 * value + digit)) rest else none

/-- The text of the literal that some characters begin with, and what follows it. -/
def literal? : List Char → Option (String × List Char)
  | '"' :: rest => (literalFrom (.text false) rest).map fun parts => (String.ofList parts.1, parts.2)
  | _ => none

/-! ## Code points -/

theorem literalFrom_digit {count value digit : Nat} (hd : digit < 16) (hc : count < 6)
    (rest : List Char) :
    literalFrom (.point count value) (Nat.digitChar digit :: rest) =
      literalFrom (.point (count + 1) (16 * value + digit)) rest := by
  have hdigit : ∀ d < 16, Nat.digitChar d ≠ '\x7d' ∧ Nat.digitChar d ≠ '_' ∧
      hexDigit? (Nat.digitChar d) = some d := by decide
  obtain ⟨hb, hu, hv⟩ := hdigit digit hd
  rw [literalFrom, if_neg hb, if_neg hu, hv, Option.bind_some, if_pos hc]

theorem literalFrom_toDigits {n : Nat} (h : (Nat.toDigits 16 n).length ≤ 6) (rest : List Char) :
    literalFrom (.point 0 0) (Nat.toDigits 16 n ++ rest) =
      literalFrom (.point (Nat.toDigits 16 n).length n) rest := by
  -- The last digit is read onto the value of the digits before it.
  induction n using Nat.strongRecOn generalizing rest with
  | ind n ih =>
    by_cases hn : n < 16
    · rw [Nat.toDigits_of_lt_base hn, List.singleton_append, literalFrom_digit hn (by decide)]
      simp
    · have hs : Nat.toDigits 16 n = Nat.toDigits 16 (n / 16) ++ [Nat.digitChar (n % 16)] := by
        rw [Nat.toDigits_eq_if (by decide), if_neg hn]
      rw [hs, List.length_append, List.length_singleton] at h ⊢
      have hl : (Nat.toDigits 16 (n / 16)).length < 6 := by omega
      have hm : n % 16 < 16 := Nat.mod_lt n (by decide)
      rw [List.append_assoc, List.singleton_append, ih (n / 16) (by omega) (Nat.le_of_lt hl),
        literalFrom_digit hm hl, Nat.div_add_mod]

theorem literalFrom_escapePoint (c : Char) (rest : List Char) :
    literalFrom (.text false) (escapePoint c ++ rest) =
      prepend c (literalFrom (.text false) rest) := by
  have hb : c.toNat < 16 ^ 6 := by
    have hv := c.valid
    simp only [UInt32.isValidChar, Nat.isValidChar] at hv
    simp only [Char.toNat]
    omega
  have hl : (Nat.toDigits 16 c.toNat).length ≤ 6 :=
    (Nat.length_toDigits_le_iff (by decide) (by decide)).mpr hb
  have hs : escapePoint c ++ rest =
      '\\' :: 'u' :: '\x7b' :: (Nat.toDigits 16 c.toNat ++ '\x7d' :: rest) := by
    simp [escapePoint]
  have hopen : ∀ rest, literalFrom (.text false) ('\\' :: 'u' :: '\x7b' :: rest) =
      literalFrom (.point 0 0) rest := fun rest => rfl
  have hv : (Nat.toDigits 16 c.toNat).length ≠ 0 ∧ c.toNat.isValidChar :=
    ⟨by simp [Nat.toDigits_ne_nil], c.valid⟩
  rw [hs, hopen, literalFrom_toDigits hl, literalFrom, if_pos rfl, if_pos hv, Char.ofNat_toNat]

/-! ## Quoted texts -/

theorem literalFrom_escape (c : Char) (rest : List Char) :
    literalFrom (.text false) (escape '"' c ++ rest) =
      prepend c (literalFrom (.text false) rest) := by
  rw [escape]
  split_ifs with h0 ht hr hn hb hq hs
  · rw [h0]
    rfl
  · rw [ht]
    rfl
  · rw [hr]
    rfl
  · rw [hn]
    rfl
  · rw [hb]
    rfl
  · rw [hq]
    rfl
  · rw [List.singleton_append, literalFrom, if_neg (by simp), if_neg hq, if_neg hb, if_neg hr]
  · exact literalFrom_escapePoint c rest

theorem literalFrom_flatMap (content rest : List Char) :
    literalFrom (.text false) (content.flatMap (escape '"') ++ '"' :: rest) =
      some (content, rest) := by
  induction content with
  | nil => rfl
  | cons c content ih =>
    rw [List.flatMap_cons, List.append_assoc, literalFrom_escape, ih]
    rfl

/-- A quoted text is a literal of the text, whatever comes after it. -/
theorem literal?_quoted (text : String) (rest : List Char) :
    literal? ((quoted text).toList ++ rest) = some (text, rest) := by
  rw [toList_quoted, enclose, List.cons_append, List.append_assoc, List.singleton_append, literal?,
    literalFrom_flatMap, Option.map_some, String.ofList_toList]

end HandlerRegistry.Text
