import HandlerRegistry.Proofs.Toml.Value
import Mathlib.Data.List.Forall2

/-! # How strings and integers are written

A character of a basic string is written as it is, or as one of its escapes. An integer is written in
decimal digits or in those of another base. Whatever the spelling, the value that it stands for is read
(`QuotedString.valueScan_written`, `IsInteger.valueScan`), and every text can be written
(`BasicString.ofText`). -/

namespace HandlerRegistry.Toml
set_option autoImplicit false

/-! ## Digits -/

/-- Whether a character is the digit of a base with the given value, in either case. -/
def IsDigit (base : Nat) (c : Char) (digit : Nat) : Prop :=
  digit < base ∧ (c = Nat.digitChar digit ∨ c = (Nat.digitChar digit).toUpper)

/-- The number with the given digits, after the digits that have been read. -/
def positional (base start : Nat) (digits : List Nat) : Nat :=
  digits.foldl (fun value digit => value * base + digit) start

/-- Whether characters are the digits of a number, perhaps after some zeros. -/
def Writes (base : Nat) (written : List Char) (n : Nat) : Prop :=
  ∃ digits, List.Forall₂ (IsDigit base) written digits ∧ positional base 0 digits = n

section
variable {base digit n : Nat} {c : Char} {written : List Char} {digits : List Nat}

theorem IsDigit.read (h : IsDigit base c digit) (hb : base ≤ 16) :
    Text.hexDigit? c = some digit ∧ digitValue c = digit ∧ isDigitOf base c = true ∧
      isWordChar c = true := by
  have hd : ∀ d < 16, ∀ c, c = Nat.digitChar d ∨ c = (Nat.digitChar d).toUpper →
      Text.hexDigit? c = some d ∧ digitValue c = d ∧
        (c.isDigit || ('a' ≤ c && c ≤ 'f') || ('A' ≤ c && c ≤ 'F')) = true ∧
          isWordChar c = true := by
    have hl : ∀ d < 16, Text.hexDigit? (Nat.digitChar d) = some d ∧
        digitValue (Nat.digitChar d) = d ∧
        ((Nat.digitChar d).isDigit || ('a' ≤ Nat.digitChar d && Nat.digitChar d ≤ 'f') ||
          ('A' ≤ Nat.digitChar d && Nat.digitChar d ≤ 'F')) = true ∧
        isWordChar (Nat.digitChar d) = true := by decide
    have hu : ∀ d < 16, Text.hexDigit? (Nat.digitChar d).toUpper = some d ∧
        digitValue (Nat.digitChar d).toUpper = d ∧
        ((Nat.digitChar d).toUpper.isDigit ||
          ('a' ≤ (Nat.digitChar d).toUpper && (Nat.digitChar d).toUpper ≤ 'f') ||
          ('A' ≤ (Nat.digitChar d).toUpper && (Nat.digitChar d).toUpper ≤ 'F')) = true ∧
        isWordChar (Nat.digitChar d).toUpper = true := by decide
    rintro d hd c (rfl | rfl)
    · exact hl d hd
    · exact hu d hd
  obtain ⟨hlt, hc⟩ := h
  obtain ⟨hx, hv, hh, hw⟩ := hd digit (Nat.lt_of_lt_of_le hlt hb) c hc
  refine ⟨hx, hv, ?_, hw⟩
  rw [isDigitOf, hh, hv, Bool.true_and]
  exact decide_eq_true hlt

theorem hexDigits_append (h : List.Forall₂ (IsDigit 16) written digits) (start : Nat)
    (rest : List Char) : hexDigits start written.length (written ++ rest) =
      some (positional 16 start digits, rest) := by
  induction h generalizing start with
  | nil => rfl
  | cons hd _ ih =>
    obtain ⟨hx, -⟩ := hd.read (Nat.le_refl _)
    rw [List.length_cons, List.cons_append, hexDigits, hx]
    exact ih _

theorem baseValue_eq (h : Writes base written n) (hb : base ≤ 16) : baseValue base written = n := by
  obtain ⟨digits, hd, rfl⟩ := h
  rw [baseValue]
  generalize 0 = start
  induction hd generalizing start with
  | nil => rfl
  | cons hd _ ih =>
    obtain ⟨-, hv, -⟩ := hd.read hb
    rw [List.foldl_cons, hv, ih]
    rfl

theorem Writes.all (h : Writes base written n) (hb : base ≤ 16) :
    ∀ c ∈ written, isDigitOf base c = true ∧ isWordChar c = true := by
  obtain ⟨digits, hd, -⟩ := h
  intro c hc
  obtain ⟨i, hi, rfl⟩ := List.getElem_of_mem hc
  obtain ⟨-, -, hdigit, hw⟩ := (hd.get hi (hd.length_eq ▸ hi)).read hb
  exact ⟨hdigit, hw⟩

end

/-! ## Basic strings -/

/-- The characters with an escape of one letter. -/
def letters : List (Char × Char) :=
  [('b', '\x08'), ('t', '\t'), ('n', '\n'), ('f', '\x0C'), ('r', '\r'), ('e', '\x1B'), ('"', '"'),
    ('\\', '\\')]

/-- The letters that announce the digits of a code point, and how many there are. -/
def pointMarks : List (Char × Nat) := [('x', 2), ('u', 4), ('U', 8)]

/-- The ways to write a character in a basic string. -/
inductive Spells : List Char → Char → Prop where
  | plain {c : Char} (hp : isPlain c = true) (hq : c ≠ '"') (hb : c ≠ '\\') : Spells [c] c
  | letter {mark c : Char} (hm : (mark, c) ∈ letters) : Spells ['\\', mark] c
  | point {mark c : Char} {written : List Char} (hm : (mark, written.length) ∈ pointMarks)
      (hd : Writes 16 written c.toNat) : Spells ('\\' :: mark :: written) c

theorem codePoint_append {written : List Char} {c : Char} (h : Writes 16 written c.toNat)
    (rest : List Char) : codePoint written.length (written ++ rest) = some (c, rest) := by
  obtain ⟨digits, hd, hn⟩ := h
  rw [codePoint, hexDigits_append hd, hn]
  simp only [Char.ofNat_toNat]
  exact if_pos c.valid

theorem Spells.basicItem {piece : List Char} {c : Char} (h : Spells piece c) (rest : List Char) :
    basicItem (piece ++ rest) = some (([c], false), rest) := by
  cases h with
  | plain hp hq hb =>
    rw [List.singleton_append, basicItem.eq_4 _ _ hq hb, if_pos hp]
  | letter hm =>
    simp only [letters, List.mem_cons, List.not_mem_nil, or_false, Prod.mk.injEq] at hm
    rcases hm with ⟨rfl, rfl⟩ | ⟨rfl, rfl⟩ | ⟨rfl, rfl⟩ | ⟨rfl, rfl⟩ | ⟨rfl, rfl⟩ | ⟨rfl, rfl⟩ |
      ⟨rfl, rfl⟩ | ⟨rfl, rfl⟩ <;> rfl
  | @point mark c written hm hd =>
    have hc := codePoint_append hd rest
    have he : escapeScan (mark :: (written ++ rest)) = some (c, rest) := by
      simp only [pointMarks, List.mem_cons, List.not_mem_nil, or_false, Prod.mk.injEq] at hm
      rcases hm with ⟨rfl, hl⟩ | ⟨rfl, hl⟩ | ⟨rfl, hl⟩ <;> rw [hl] at hc <;> exact hc
    rw [List.cons_append, List.cons_append, Toml.basicItem, he]
    rfl

theorem Spells.ne_nil {piece : List Char} {c : Char} (h : Spells piece c) :
    ∃ d rest, piece = d :: rest ∧ d ≠ '"' := by
  cases h with
  | plain _ hq _ => exact ⟨_, _, rfl, hq⟩
  | letter _ => exact ⟨_, _, rfl, by decide⟩
  | point _ _ => exact ⟨_, _, rfl, by decide⟩

theorem runs_basicItem {pieces : List (List Char)} {content : List Char}
    (h : List.Forall₂ Spells pieces content) (rest : List Char) :
    Runs basicItem (pieces.flatten ++ '"' :: rest) content rest := by
  induction h with
  | nil => exact .last rfl
  | @cons piece c pieces content hs _ ih =>
    obtain ⟨d, after, hp, -⟩ := hs.ne_nil
    rw [List.flatten_cons, List.append_assoc, ← List.singleton_append]
    refine .more (hs.basicItem _) ?_ ih
    simp only [hp, List.length_append, List.length_cons]
    omega

/-- A text and a way to write it as a basic string. -/
structure BasicString where
  text : String
  pieces : List (List Char)
  spells : List.Forall₂ Spells pieces text.toList

namespace BasicString

def written (string : BasicString) : List Char := '"' :: (string.pieces.flatten ++ ['"'])

theorem valueScan_written (string : BasicString) (depth : Nat) :
    valueScan depth string.written = some (.string string.text, []) := by
  obtain ⟨text, pieces, spells⟩ := string
  have hr : basicString (pieces.flatten ++ ['"']) = some (text, []) := by
    rw [basicString, (runs_basicItem spells []).repeatScan, Option.map_some, String.ofList_toList]
  have hs : anyString ('"' :: (pieces.flatten ++ ['"'])) = some (text, []) := by
    rw [anyString.eq_3, hr]
    rintro rest he
    cases pieces with
    | nil => cases he
    | cons piece pieces =>
      obtain ⟨c, content, hp, -, -⟩ := List.forall₂_cons_left_iff.mp spells
      obtain ⟨d, after, rfl, hd⟩ := hp.ne_nil
      exact hd (List.cons.inj he).1
  obtain ⟨inner, hi⟩ := exists_valueWith depth
  rw [hi, written, valueWith, hs, Option.map_some]

/-! ### A spelling of every text -/

/-- The escape of a character that has to be escaped, or else the character itself. -/
def piece (c : Char) : List Char :=
  if c = '"' ∨ c = '\\' then ['\\', c]
  else if isPlain c then [c]
  else ['\\', 'u', '0', '0', Nat.digitChar (c.toNat / 16), Nat.digitChar (c.toNat % 16)]

theorem spells_piece (c : Char) : Spells (piece c) c := by
  rw [piece]
  split
  · rename_i h
    rcases h with rfl | rfl
    · exact .letter (by decide)
    · exact .letter (by decide)
  · rename_i h
    rw [not_or] at h
    split
    · rename_i hp
      exact .plain hp h.1 h.2
    · rename_i hp
      have hc : c.toNat < 128 := by
        simp only [isPlain, Bool.or_eq_true, Bool.and_eq_true, decide_eq_true_eq, bne_iff_ne] at hp
        omega
      have hm : ('u', 4) ∈ pointMarks := by decide
      refine .point hm ⟨[0, 0, c.toNat / 16, c.toNat % 16], ?_, ?_⟩
      · exact .cons ⟨by decide, .inl rfl⟩ (.cons ⟨by decide, .inl rfl⟩
          (.cons ⟨by omega, .inl rfl⟩ (.cons ⟨by omega, .inl rfl⟩ .nil)))
      · simp only [positional, List.foldl_cons, List.foldl_nil]
        omega

def ofText (text : String) : BasicString where
  text := text
  pieces := text.toList.map piece
  spells := by
    rw [List.forall₂_map_left_iff]
    exact List.forall₂_same.mpr fun c _ => spells_piece c

end BasicString

/-! ## Strings of every sort -/

/-- Whether all characters can stand between single quotes. -/
def isLiteral (content : List Char) : Bool := content.all fun c => isPlain c && c != '\''

theorem runs_literalItem {content : List Char} (h : isLiteral content = true) (rest : List Char) :
    Runs literalItem (content ++ '\'' :: rest) content rest := by
  induction content with
  | nil => exact .last rfl
  | cons c content ih =>
    rw [isLiteral, List.all_cons, Bool.and_eq_true, Bool.and_eq_true, bne_iff_ne] at h
    obtain ⟨⟨hp, hq⟩, hr⟩ := h
    have hs : literalItem (c :: (content ++ '\'' :: rest)) =
        some (([c], false), content ++ '\'' :: rest) := by
      rw [literalItem.eq_3 _ _ hq, if_pos hp]
    exact .more hs (Nat.lt_succ_self _) (ih hr)

/-- The ways to write a string. -/
inductive QuotedString where
  | basic (string : BasicString)
  | literal (text : String) (plain : isLiteral text.toList = true)
  /-- With three quotes on each side. The text begins on the next line, or leaves out line ends, or
  holds quotes, as the scan has it. -/
  | block (text : String) (written : List Char)
      (reads : valueScan 0 written = some (.string text, []))

namespace QuotedString

def text : QuotedString → String
  | .basic string => string.text
  | .literal text _ => text
  | .block text _ _ => text

def written : QuotedString → List Char
  | .basic string => string.written
  | .literal text _ => '\'' :: (text.toList ++ ['\''])
  | .block _ written _ => written

theorem valueScan_literal {text : String} (plain : isLiteral text.toList = true) (depth : Nat) :
    valueScan depth ('\'' :: (text.toList ++ ['\''])) = some (.string text, []) := by
  have hr : literalString (text.toList ++ ['\'']) = some (text, []) := by
    rw [literalString, (runs_literalItem plain []).repeatScan, Option.map_some,
      String.ofList_toList]
  have hs : anyString ('\'' :: (text.toList ++ ['\''])) = some (text, []) := by
    rw [anyString.eq_4, hr]
    rintro rest he
    cases hc : text.toList with
    | nil =>
      rw [hc] at he
      cases he
    | cons c content =>
      rw [hc] at he plain
      rw [(List.cons.inj he).1] at plain
      cases plain
  obtain ⟨inner, hi⟩ := exists_valueWith depth
  rw [hi, valueWith, hs, Option.map_some]

theorem valueScan_written (string : QuotedString) (depth : Nat) :
    valueScan depth string.written = some (.string string.text, []) := by
  cases string with
  | basic string => exact string.valueScan_written depth
  | literal text plain => exact valueScan_literal plain depth
  | block text written reads => exact valueScan_mono (Nat.zero_le depth) reads

end QuotedString

/-! ## Integers -/

/-- The marks of the bases other than ten. -/
def baseMarks : List (Char × Nat) := [('x', 16), ('o', 8), ('b', 2)]

/-- The ways to write a number that is not negative as an integer. Underscores may stand between
digits. A decimal number has no zeros in front of its digits, but may have a sign; the only one with a
minus is zero. -/
inductive IsInteger : List Char → Nat → Prop where
  | decimal {mark : List Char} {groups : List (List Char)} {n : Nat}
      (hs : mark = [] ∨ mark = ['+'] ∨ mark = ['-'] ∧ n = 0) (hg : ∀ group ∈ groups, group ≠ [])
      (hd : groups.flatten = Nat.toDigits 10 n) : IsInteger (mark ++ ['_'].intercalate groups) n
  | based {mark : Char} {base : Nat} {groups : List (List Char)} {n : Nat}
      (hm : (mark, base) ∈ baseMarks) (hne : groups ≠ []) (hg : ∀ group ∈ groups, group ≠ [])
      (hd : Writes base groups.flatten n) :
      IsInteger ('0' :: mark :: ['_'].intercalate groups) n

theorem separated_intercalate {isDigit : Char → Bool} {groups : List (List Char)}
    (hu : isDigit '_' = false) (hne : groups ≠ []) (hg : ∀ group ∈ groups, group ≠ [])
    (hd : ∀ c ∈ groups.flatten, isDigit c = true) :
    separated isDigit (['_'].intercalate groups) = some groups.flatten := by
  have hs : (['_'].intercalate groups).splitOn '_' = groups := by
    apply List.splitOn_intercalate _ _ hne
    intro group hm hc
    rw [hd '_' (List.mem_flatten_of_mem hm hc)] at hu
    cases hu
  have ha : groups.all (fun part => !part.isEmpty && part.all isDigit) = true := by
    rw [List.all_eq_true]
    intro group hm
    rw [Bool.and_eq_true, List.all_eq_true, Bool.not_eq_true', List.isEmpty_eq_false_iff]
    exact ⟨hg group hm, fun c hc => hd c (List.mem_flatten_of_mem hm hc)⟩
  rw [separated, hs]
  exact if_pos ha

theorem toDigits_head {n : Nat} (h : n ≠ 0) :
    (Nat.toDigits 10 n).head? ≠ some '0' := by
  induction n using Nat.strongRecOn with
  | ind n ih =>
    rw [Nat.toDigits_eq_if (by decide)]
    split
    · rename_i hn
      have hd : ∀ d < 10, d ≠ 0 → [Nat.digitChar d].head? ≠ some '0' := by decide
      exact hd n hn h
    · have hq : n / 10 ≠ 0 := by omega
      obtain ⟨c, rest, hc⟩ := List.exists_cons_of_ne_nil (Nat.toDigits_ne_nil (n := n / 10) (b := 10))
      have hi := ih (n / 10) (by omega) hq
      rw [hc] at hi ⊢
      exact hi

theorem decimalDigits_intercalate {groups : List (List Char)} {n : Nat}
    (hg : ∀ group ∈ groups, group ≠ []) (hd : groups.flatten = Nat.toDigits 10 n) :
    decimalDigits (['_'].intercalate groups) = some (Nat.toDigits 10 n) := by
  have hne : groups ≠ [] := by
    rintro rfl
    exact Nat.toDigits_ne_nil hd.symm
  have ha : ∀ c ∈ groups.flatten, c.isDigit = true := by
    rw [hd]
    exact fun c hc => Nat.isDigit_of_mem_toDigits (by decide) (by decide) hc
  rw [decimalDigits, separated_intercalate (by decide) hne hg ha, hd]
  split
  · rename_i he
    exact he.symm
  · rename_i rest hr he
    by_cases hn : n = 0
    · rw [hn] at he
      exact absurd (List.cons.inj (Option.some.inj he)).2.symm hr
    · exact absurd (congrArg List.head? (Option.some.inj he)) (toDigits_head hn)
  · rfl

theorem mem_intercalate {groups : List (List Char)} {c : Char}
    (h : c ∈ ['_'].intercalate groups) : c = '_' ∨ c ∈ groups.flatten := by
  induction groups with
  | nil => cases h
  | cons group groups ih =>
    cases groups with
    | nil =>
      rw [List.intercalate_singleton] at h
      exact .inr (by rw [List.flatten_singleton]; exact h)
    | cons next groups =>
      rw [List.intercalate_cons_cons, List.mem_append, List.mem_append, List.mem_singleton] at h
      rw [List.flatten_cons, List.mem_append]
      obtain (h | h) | h := h
      · exact .inr (.inl h)
      · exact .inl h
      · exact (ih h).imp_right .inr

/-- The first digit of groups of digits. -/
theorem exists_cons_intercalate {groups : List (List Char)} (hne : groups ≠ [])
    (hg : ∀ group ∈ groups, group ≠ []) :
    ∃ c rest, ['_'].intercalate groups = c :: rest ∧ c ∈ groups.flatten := by
  cases groups with
  | nil => exact absurd rfl hne
  | cons group groups =>
    obtain ⟨c, digits, rfl⟩ := List.exists_cons_of_ne_nil (hg group List.mem_cons_self)
    have hc : c ∈ ((c :: digits) :: groups).flatten := by
      rw [List.flatten_cons]
      exact List.mem_cons_self
    cases groups with
    | nil => exact ⟨c, digits, List.intercalate_singleton, hc⟩
    | cons next groups => exact ⟨c, _, by rw [List.intercalate_cons_cons]; rfl, hc⟩

theorem readInteger_decimal {word run digits : List Char} {negative : Bool}
    (hc : ∀ c rest, word = '0' :: c :: rest → c ≠ 'x' ∧ c ≠ 'o' ∧ c ≠ 'b')
    (hs : signed word = (negative, run)) (hd : decimalDigits run = some digits) :
    readInteger word = some (.integer (withSign negative (Nat.ofDigitChars 10 digits 0))) := by
  rw [readInteger.eq_def]
  split
  · exact absurd rfl (hc _ _ rfl).1
  · exact absurd rfl (hc _ _ rfl).2.1
  · exact absurd rfl (hc _ _ rfl).2.2
  · rw [hs, hd, Option.map_some]

section
variable {groups : List (List Char)} {n : Nat}

/-- The digits of a decimal number, with their underscores. -/
theorem decimal_digits (hg : ∀ group ∈ groups, group ≠ [])
    (hd : groups.flatten = Nat.toDigits 10 n) :
    (∃ c rest, ['_'].intercalate groups = c :: rest ∧ c.isDigit = true) ∧
      ∀ c ∈ ['_'].intercalate groups, c = '_' ∨ c.isDigit = true := by
  have ha : ∀ c ∈ groups.flatten, c.isDigit = true := by
    rw [hd]
    exact fun c hc => Nat.isDigit_of_mem_toDigits (by decide) (by decide) hc
  have hne : groups ≠ [] := by
    rintro rfl
    exact Nat.toDigits_ne_nil hd.symm
  obtain ⟨c, rest, he, hc⟩ := exists_cons_intercalate hne hg
  exact ⟨⟨c, rest, he, ha c hc⟩, fun c hc => (mem_intercalate hc).imp_right (ha c)⟩

theorem signed_intercalate (hg : ∀ group ∈ groups, group ≠ [])
    (hd : groups.flatten = Nat.toDigits 10 n) :
    signed (['_'].intercalate groups) = (false, ['_'].intercalate groups) := by
  obtain ⟨⟨c, rest, he, hc⟩, -⟩ := decimal_digits hg hd
  rw [he, signed.eq_3]
  · exact fun after h => ne_of_passes hc (by decide) (List.cons.inj h).1
  · exact fun after h => ne_of_passes hc (by decide) (List.cons.inj h).1

theorem IsInteger.readInteger {word : List Char} (h : IsInteger word n) :
    readInteger word = some (.integer n) := by
  cases h with
  | @decimal mark groups n hs hg hd =>
    have hn : Nat.ofDigitChars 10 (Nat.toDigits 10 n) 0 = n :=
      Nat.ofDigitChars_toDigits (by decide) (by decide)
    have hr := decimalDigits_intercalate hg hd
    obtain rfl | rfl | ⟨rfl, rfl⟩ := hs
    · have hc : ∀ c rest, ['_'].intercalate groups = '0' :: c :: rest →
          c ≠ 'x' ∧ c ≠ 'o' ∧ c ≠ 'b' := by
        intro c rest he
        have hm := (decimal_digits hg hd).2 c (he ▸ List.mem_cons_of_mem _ List.mem_cons_self)
        obtain rfl | hm := hm
        · decide
        · exact ⟨ne_of_passes hm (by decide), ne_of_passes hm (by decide),
            ne_of_passes hm (by decide)⟩
      rw [List.nil_append, readInteger_decimal hc (signed_intercalate hg hd) hr, hn]
      rfl
    · have hsign : signed ('+' :: ['_'].intercalate groups) = (false, _) := rfl
      rw [List.singleton_append, readInteger_decimal (fun c rest he =>
        absurd (List.cons.inj he).1 (by decide)) hsign hr, hn]
      rfl
    · have hsign : signed ('-' :: ['_'].intercalate groups) = (true, _) := rfl
      rw [List.singleton_append, readInteger_decimal (fun c rest he =>
        absurd (List.cons.inj he).1 (by decide)) hsign hr, hn]
      rfl
  | @based mark base groups n hm hne hg hd =>
    have hb : base ≤ 16 := by
      simp only [baseMarks, List.mem_cons, List.not_mem_nil, or_false, Prod.mk.injEq] at hm
      omega
    have hr : readInBase base (['_'].intercalate groups) = some (.integer n) := by
      rw [readInBase, separated_intercalate rfl hne hg fun c hc => (hd.all hb c hc).1,
        Option.map_some, baseValue_eq hd hb]
    simp only [baseMarks, List.mem_cons, List.not_mem_nil, or_false, Prod.mk.injEq] at hm
    obtain ⟨rfl, rfl⟩ | ⟨rfl, rfl⟩ | ⟨rfl, rfl⟩ := hm <;> exact hr

theorem IsInteger.isWordChar {word : List Char} (h : IsInteger word n) :
    ∀ c ∈ word, isWordChar c = true := by
  cases h with
  | @decimal mark groups n hs hg hd =>
    have hm : ∀ c ∈ mark, Toml.isWordChar c = true := by
      obtain rfl | rfl | ⟨rfl, -⟩ := hs
      · exact List.forall_mem_nil _
      · exact List.forall_mem_singleton.mpr (by decide)
      · exact List.forall_mem_singleton.mpr (by decide)
    have hi : ∀ c ∈ ['_'].intercalate groups, Toml.isWordChar c = true := by
      intro c hc
      obtain rfl | hc := (decimal_digits hg hd).2 c hc
      · decide
      · exact isWordChar_of_isDigit hc
    exact List.forall_mem_append.mpr ⟨hm, hi⟩
  | @based mark base groups n hm hne hg hd =>
    have hb : base ≤ 16 ∧ Toml.isWordChar mark = true := by
      simp only [baseMarks, List.mem_cons, List.not_mem_nil, or_false, Prod.mk.injEq] at hm
      obtain ⟨rfl, rfl⟩ | ⟨rfl, rfl⟩ | ⟨rfl, rfl⟩ := hm <;> decide
    have hi : ∀ c ∈ ['_'].intercalate groups, Toml.isWordChar c = true := by
      intro c hc
      obtain rfl | hc := mem_intercalate hc
      · decide
      · exact (hd.all hb.1 c hc).2
    exact List.forall_mem_cons.mpr ⟨by decide, List.forall_mem_cons.mpr ⟨hb.2, hi⟩⟩

theorem IsInteger.exists_head {word : List Char} (h : IsInteger word n) :
    ∃ c rest, word = c :: rest ∧ (c.isDigit = true ∨ c = '+' ∨ c = '-') := by
  cases h with
  | @decimal mark groups n hs hg hd =>
    obtain rfl | rfl | ⟨rfl, -⟩ := hs
    · obtain ⟨⟨c, rest, he, hc⟩, -⟩ := decimal_digits hg hd
      exact ⟨c, rest, he, .inl hc⟩
    · exact ⟨'+', _, rfl, .inr (.inl rfl)⟩
    · exact ⟨'-', _, rfl, .inr (.inr rfl)⟩
  | based => exact ⟨'0', _, rfl, .inl (by decide)⟩

theorem IsInteger.valueScan {word : List Char} (h : IsInteger word n) (depth : Nat) :
    valueScan depth word = some (.integer n, []) := by
  obtain ⟨c, rest, he, hc⟩ := h.exists_head
  have hne : ∀ d : Char, d.isDigit = false → d ≠ '+' → d ≠ '-' → c ≠ d := by
    rintro d hd hp hm rfl
    obtain hc | rfl | rfl := hc
    · exact ne_of_passes hc hd rfl
    · exact hp rfl
    · exact hm rfl
  have hw : wordScan (word ++ []) = (word, []) :=
    wordScan_word h.isWordChar (fun c hc => nomatch hc) fun _ c after he => nomatch he
  have hr : readWord word = some (.integer n) := by
    rw [readWord, if_neg, if_neg, h.readInteger]
    · rw [he]
      exact fun hf => hne 'f' (by decide) (by decide) (by decide) (List.cons.inj hf).1
    · rw [he]
      exact fun ht => hne 't' (by decide) (by decide) (by decide) (List.cons.inj ht).1
  have hs : scalarScan word = some (.integer n, []) := by
    rw [List.append_nil] at hw
    rw [scalarScan, hw, hr, Option.map_some]
  obtain ⟨inner, hi⟩ := exists_valueWith depth
  rw [hi, ← hs, he]
  exact valueWith_word inner (hne _ (by decide) (by decide) (by decide))
    (hne _ (by decide) (by decide) (by decide)) (hne _ (by decide) (by decide) (by decide))
    (hne _ (by decide) (by decide) (by decide))

end
end HandlerRegistry.Toml
