import HandlerRegistry.Capacity
import Mathlib.Data.List.Forall2
import Mathlib.Data.Nat.Digits.Defs
import Mathlib.Tactic.Ring

/-! # The texts of capacities

A capacity is written as `auto` in letters of either case, or as a slot count in decimal digits,
perhaps after some zeros and one plus sign. The two forms share no text, and every other text is
refused. -/

namespace HandlerRegistry
set_option autoImplicit false

/-! ## Numbers in decimal digits -/

namespace Text
variable {digits : List Char} {n : Nat}

/-- Whether characters are the decimal digits of a number, perhaps after some zeros. -/
def IsDecimal (digits : List Char) (n : Nat) : Prop :=
  ∃ values : List Nat, values ≠ [] ∧ (∀ d ∈ values, d < 10) ∧
    digits = values.map Nat.digitChar ∧ n = Nat.ofDigits 10 values.reverse

theorem digitChar_of_isDigit {c : Char} (h : c.isDigit = true) :
    c.toNat - 48 < 10 ∧ Nat.digitChar (c.toNat - 48) = c := by
  obtain ⟨hl, hu⟩ := Bool.and_eq_true_iff.mp h
  have hlow : 48 ≤ c.toNat := of_decide_eq_true hl
  have hhigh : c.toNat ≤ 57 := of_decide_eq_true hu
  have hd : ∀ d < 10, Nat.digitChar d = Char.ofNat (48 + d) := by decide
  refine ⟨by omega, ?_⟩
  rw [hd _ (by omega), Nat.add_sub_cancel' hlow, Char.ofNat_toNat]

theorem ofDigitChars_digitChars {values : List Nat} (h : ∀ d ∈ values, d < 10) (start : Nat) :
    Nat.ofDigitChars 10 (values.map Nat.digitChar) start =
      Nat.ofDigits 10 values.reverse + 10 ^ values.length * start := by
  induction values generalizing start with
  | nil => simp
  | cons d values ih =>
    obtain ⟨hd, hr⟩ := List.forall_mem_cons.mp h
    have hv : (Nat.digitChar d).toNat - '0'.toNat = d := Nat.toNat_digitChar_sub_48_of_lt_ten hd
    rw [List.map_cons, Nat.ofDigitChars_cons, hv, ih hr, List.reverse_cons, Nat.ofDigits_append,
      Nat.ofDigits_singleton, List.length_reverse, List.length_cons]
    ring

theorem exists_values (h : ∀ c ∈ digits, c.isDigit = true) :
    ∃ values : List Nat, (∀ d ∈ values, d < 10) ∧ digits = values.map Nat.digitChar := by
  induction digits with
  | nil => exact ⟨[], by simp, rfl⟩
  | cons c digits ih =>
    obtain ⟨hc, hr⟩ := List.forall_mem_cons.mp h
    obtain ⟨values, hv, rfl⟩ := ih hr
    obtain ⟨hl, he⟩ := digitChar_of_isDigit hc
    exact ⟨(c.toNat - 48) :: values, List.forall_mem_cons.mpr ⟨hl, hv⟩, by rw [List.map_cons, he]⟩

theorem readDigits_digitChars {values : List Nat} (hne : values ≠ [])
    (h : ∀ d ∈ values, d < 10) :
    readDigits (values.map Nat.digitChar) = some (Nat.ofDigits 10 values.reverse) := by
  have hd : (!(values.map Nat.digitChar).isEmpty &&
      (values.map Nat.digitChar).all Char.isDigit) = true := by
    simp only [Bool.and_eq_true, Bool.not_eq_true', List.isEmpty_eq_false_iff, List.all_map,
      List.all_eq_true, Function.comp_apply, Nat.isDigit_digitChar, decide_eq_true_eq]
    exact ⟨by simpa using hne, h⟩
  rw [readDigits, if_pos hd, ofDigitChars_digitChars h, Nat.mul_zero, Nat.add_zero]

theorem readDigits_eq_some_iff : readDigits digits = some n ↔ IsDecimal digits n := by
  constructor
  · intro h
    have hd : (!digits.isEmpty && digits.all Char.isDigit) = true := by
      by_contra hn
      rw [readDigits, if_neg hn] at h
      cases h
    rw [Bool.and_eq_true, Bool.not_eq_true', List.isEmpty_eq_false_iff, List.all_eq_true] at hd
    obtain ⟨values, hv, rfl⟩ := exists_values hd.2
    have hne : values ≠ [] := by simpa using hd.1
    rw [readDigits_digitChars hne hv] at h
    exact ⟨values, hne, hv, rfl, (Option.some.inj h).symm⟩
  · rintro ⟨values, hne, hv, rfl, rfl⟩
    exact readDigits_digitChars hne hv

theorem word64?_eq_some_iff {w : UInt64} : word64? n = some w ↔ n = w.toNat := by
  constructor
  · intro h
    rw [word64?] at h
    split at h
    · rename_i hn
      rw [← Option.some.inj h]
      exact (UInt64.toNat_ofNat_of_lt' hn).symm
    · cases h
  · rintro rfl
    exact word64?_toNat w

end Text

namespace Capacity
variable {text : String} {slots : UInt64}

/-! ## Slot counts -/

/-- Whether a text is a number in decimal digits, perhaps after one plus sign. -/
def WritesCount (text : String) (n : Nat) : Prop :=
  ∃ digits, (text.toList = digits ∨ text.toList = '+' :: digits) ∧ Text.IsDecimal digits n

theorem unsigned_of_isDecimal {digits : List Char} {n : Nat} (h : Text.IsDecimal digits n) :
    unsigned digits = digits := by
  obtain ⟨values, -, hv, rfl, -⟩ := h
  cases values with
  | nil => rfl
  | cons d values =>
    have hd : ∀ d < 10, Nat.digitChar d ≠ '+' := by decide
    rw [List.map_cons, unsigned.eq_2]
    exact fun rest he => hd d (hv d List.mem_cons_self) (List.cons.inj he).1

theorem slots?_eq_some_iff : slots? text.toList = some slots ↔ WritesCount text slots.toNat := by
  simp only [slots?, Option.bind_eq_some_iff, Text.word64?_eq_some_iff,
    Text.readDigits_eq_some_iff, exists_eq_right]
  constructor
  · intro h
    refine ⟨unsigned text.toList, ?_, h⟩
    unfold unsigned
    split
    · rename_i he
      exact .inr he
    · exact .inl rfl
  · rintro ⟨digits, he | he, h⟩
    · rwa [he, unsigned_of_isDecimal h]
    · rwa [he]

/-! ## The word -/

/-- Whether a text is `auto`, each letter in either case. -/
def SpellsAuto (text : String) : Prop :=
  List.Forall₂ (fun c letter => c = letter ∨ c = letter.toUpper) text.toList "auto".toList

theorem toLower_eq_iff {c letter : Char} (h : letter ∈ "auto".toList) :
    c.toLower = letter ↔ c = letter ∨ c = letter.toUpper := by
  by_cases hc : c.toNat < 128
  · have hd : ∀ n < 128, ("auto".toList.all fun letter => (Char.ofNat n).toLower = letter ↔
        Char.ofNat n = letter ∨ Char.ofNat n = letter.toUpper) = true := by decide +kernel
    have hl := of_decide_eq_true (List.all_eq_true.mp (hd c.toNat hc) letter h)
    rwa [Char.ofNat_toNat] at hl
  · have hl : c.toLower = c := by
      unfold Char.toLower
      split
      · rename_i hu
        have hz : c.toNat ≤ 90 := hu.2
        omega
      · rfl
    have ha : ("auto".toList.all fun letter =>
        letter.toNat < 128 ∧ letter.toUpper.toNat < 128) = true := by decide
    obtain ⟨hn, hu⟩ := of_decide_eq_true (List.all_eq_true.mp ha letter h)
    rw [hl]
    refine ⟨.inl, ?_⟩
    rintro (rfl | rfl)
    · rfl
    · exact absurd hu hc

theorem map_toLower_eq_iff {chars letters : List Char} (h : ∀ letter ∈ letters, ∀ c : Char,
    c.toLower = letter ↔ c = letter ∨ c = letter.toUpper) : chars.map Char.toLower = letters ↔
      List.Forall₂ (fun c letter => c = letter ∨ c = letter.toUpper) chars letters := by
  induction letters generalizing chars with
  | nil => simp
  | cons letter letters ih =>
    obtain ⟨hl, hr⟩ := List.forall_mem_cons.mp h
    cases chars with
    | nil => simp
    | cons c chars => rw [List.map_cons, List.cons.injEq, List.forall₂_cons, hl, ih hr]

theorem spellsAuto_iff : text.toList.map Char.toLower = ['a', 'u', 't', 'o'] ↔ SpellsAuto text :=
  map_toLower_eq_iff fun _ h _ => toLower_eq_iff h

/-- The word begins with a letter; a slot count does not. -/
theorem not_spellsAuto {n : Nat} (h : WritesCount text n) : ¬ SpellsAuto text := by
  intro ha
  obtain ⟨c, rest, hc, -, hl⟩ := List.forall₂_cons_right_iff.mp ha
  have hd : ∀ d < 10, ¬ (Nat.digitChar d = 'a' ∨ Nat.digitChar d = 'a'.toUpper) := by decide
  obtain ⟨digits, he, values, hne, hv, rfl, -⟩ := h
  obtain he | he := he
  · obtain ⟨d, values, rfl⟩ := List.exists_cons_of_ne_nil hne
    obtain ⟨rfl, -⟩ := List.cons.inj (hl.symm.trans he)
    exact hd d (hv d List.mem_cons_self) hc
  · obtain ⟨rfl, -⟩ := List.cons.inj (hl.symm.trans he)
    exact absurd hc (by decide)

/-! ## Texts and capacities -/

/-- Whether a text writes no capacity. -/
def WritesNone (text : String) : Prop :=
  ¬ SpellsAuto text ∧ ∀ n < 2 ^ 64, ¬ WritesCount text n

theorem parse_of_spellsAuto (h : SpellsAuto text) : parse text = .ok .fromCount :=
  if_pos (spellsAuto_iff.mpr h)

theorem parse_of_writesCount (h : WritesCount text slots.toNat) :
    parse text = .ok (.fixed slots) := by
  have ha := fun he => not_spellsAuto h (spellsAuto_iff.mp he)
  rw [parse, if_neg ha, slots?_eq_some_iff.mpr h]

theorem parse_of_writesNone (h : WritesNone text) : parse text = .error ⟨text⟩ := by
  have ha := fun he => h.1 (spellsAuto_iff.mp he)
  have hs : slots? text.toList = none := by
    rw [Option.eq_none_iff_forall_ne_some]
    intro slots hs
    exact h.2 _ slots.toNat_lt (slots?_eq_some_iff.mp hs)
  rw [parse, if_neg ha, hs]

/-- What a text can be, and how it is read. -/
theorem parse_cases (text : String) :
    (SpellsAuto text ∧ parse text = .ok .fromCount) ∨
      (∃ slots : UInt64, WritesCount text slots.toNat ∧ parse text = .ok (.fixed slots)) ∨
      (WritesNone text ∧ parse text = .error ⟨text⟩) := by
  by_cases ha : SpellsAuto text
  · exact .inl ⟨ha, parse_of_spellsAuto ha⟩
  · by_cases hw : ∃ slots : UInt64, WritesCount text slots.toNat
    · obtain ⟨slots, hw⟩ := hw
      exact .inr (.inl ⟨slots, hw, parse_of_writesCount hw⟩)
    · have hn : WritesNone text := by
        refine ⟨ha, fun n hn h => hw ⟨UInt64.ofNat n, ?_⟩⟩
        rwa [UInt64.toNat_ofNat_of_lt' hn]
      exact .inr (.inr ⟨hn, parse_of_writesNone hn⟩)

theorem parse_eq_fromCount_iff : parse text = .ok .fromCount ↔ SpellsAuto text := by
  refine ⟨fun h => ?_, parse_of_spellsAuto⟩
  obtain ⟨ha, -⟩ | ⟨slots, -, hp⟩ | ⟨-, hp⟩ := parse_cases text
  · exact ha
  · cases h.symm.trans hp
  · cases h.symm.trans hp

theorem parse_eq_fixed_iff : parse text = .ok (.fixed slots) ↔ WritesCount text slots.toNat := by
  refine ⟨fun h => ?_, parse_of_writesCount⟩
  obtain ⟨-, hp⟩ | ⟨found, hw, hp⟩ | ⟨-, hp⟩ := parse_cases text
  · cases h.symm.trans hp
  · cases h.symm.trans hp
    exact hw
  · cases h.symm.trans hp

theorem parse_eq_error_iff {error : CapacityError} :
    parse text = .error error ↔ error = ⟨text⟩ ∧ WritesNone text := by
  refine ⟨fun h => ?_, fun ⟨he, hn⟩ => he ▸ parse_of_writesNone hn⟩
  obtain ⟨-, hp⟩ | ⟨found, -, hp⟩ | ⟨hn, hp⟩ := parse_cases text
  · cases h.symm.trans hp
  · cases h.symm.trans hp
  · cases h.symm.trans hp
    exact ⟨rfl, hn⟩

theorem head?_ne_minus {capacity : Capacity} (h : parse text = .ok capacity) :
    text.toList.head? ≠ some '-' := by
  intro hd
  obtain ⟨rest, hr⟩ := List.head?_eq_some_iff.mp hd
  rw [parse, hr] at h
  simp [slots?, unsigned, Text.readDigits] at h

theorem writesCount_repr (n : Nat) : WritesCount n.repr n :=
  ⟨_, .inl rfl, Text.readDigits_eq_some_iff.mp (Nat.toList_repr ▸ Text.readDigits_toDigits n)⟩

theorem parse_repr_iff {capacity : Capacity} :
    parse slots.toNat.repr = .ok capacity ↔ capacity = .fixed slots := by
  rw [parse_of_writesCount (writesCount_repr slots.toNat), Except.ok.injEq, eq_comm]

theorem parse_capacityText (capacity : Capacity) : parse capacity.text = .ok capacity := by
  cases capacity with
  | fixed slots => exact parse_of_writesCount (writesCount_repr slots.toNat)
  | fromCount => exact parse_of_spellsAuto (spellsAuto_iff.mp (by decide))

end Capacity
end HandlerRegistry
