import HandlerRegistry.Identifier
import HandlerRegistry.Proofs.Text.Utf8

/-! # What identifiers are made of

The characters of an identifier and of its symbol, from which it can be read back
(`ofSymbol?_eq_some_iff`), how it is written inside quotes, and the order of identifiers by their
bytes. -/

namespace HandlerRegistry.Identifier
set_option autoImplicit false

/-! ## Characters -/

theorem exists_chars (id : Identifier) : ∃ first rest, id.text.toList = first :: rest ∧
    mayStart first = true ∧ ∀ c ∈ rest, mayContinue c = true := by
  have h := fault_eq_none_iff.mp id.faultless
  cases hl : id.text.toList with
  | nil =>
    rw [hl] at h
    cases h
  | cons first rest =>
    rw [hl, isName, Bool.and_eq_true] at h
    exact ⟨first, rest, rfl, h.1, List.all_eq_true.mp h.2⟩

theorem mayContinue_of_mayStart {c : Char} (h : mayStart c = true) : mayContinue c = true := by
  simp only [mayStart, mayContinue, Char.isAlphanum, Bool.or_eq_true] at h ⊢
  obtain ha | hu := h
  · exact .inl (.inl ha)
  · exact .inr hu

theorem mayContinue_of_mem {id : Identifier} {c : Char} (h : c ∈ id.text.toList) :
    mayContinue c = true := by
  obtain ⟨first, rest, hl, hs, hr⟩ := id.exists_chars
  rw [hl] at h
  obtain rfl | hm := List.mem_cons.mp h
  · exact mayContinue_of_mayStart hs
  · exact hr c hm

/-- An identifier holds no character that may not follow in one. -/
theorem not_mem {c : Char} (id : Identifier) (h : mayContinue c = false) : c ∉ id.text.toList := by
  intro hm
  rw [mayContinue_of_mem hm] at h
  cases h

theorem toNat_of_mayContinue {c : Char} (h : mayContinue c = true) :
    0x20 ≤ c.toNat ∧ c.toNat < 0x7F := by
  simp only [mayContinue, Char.isAlphanum, Bool.or_eq_true, beq_iff_eq] at h
  obtain (ha | hd) | rfl := h
  · obtain hu | hl := Bool.or_eq_true_iff.mp ha
    · have hc : c.val ≥ 'A'.val ∧ c.val ≤ 'Z'.val := of_decide_eq_true hu
      have hlow : 65 ≤ c.toNat := hc.1
      have hhigh : c.toNat ≤ 90 := hc.2
      omega
    · have hc := Bool.and_eq_true_iff.mp hl
      have hlow : 97 ≤ c.toNat := of_decide_eq_true hc.1
      have hhigh : c.toNat ≤ 122 := of_decide_eq_true hc.2
      omega
  · have hc := Bool.and_eq_true_iff.mp hd
    have hlow : 48 ≤ c.toNat := of_decide_eq_true hc.1
    have hhigh : c.toNat ≤ 57 := of_decide_eq_true hc.2
    omega
  · decide

/-! ## Symbols -/

theorem toList_symbol (id : Identifier) :
    id.symbol.toList = symbolStart.toList ++ (id.text.toList ++ symbolEnd.toList) := by
  rw [symbol, String.toList_append, String.toList_append, List.append_assoc]

theorem not_mem_symbol {c : Char} (id : Identifier) (h : mayContinue c = false) :
    c ∉ id.symbol.toList := by
  have hs : ∀ d ∈ symbolStart.toList, mayContinue d = true := List.all_eq_true.mp (by decide)
  have he : ∀ d ∈ symbolEnd.toList, mayContinue d = true := List.all_eq_true.mp (by decide)
  rw [toList_symbol, List.mem_append, List.mem_append]
  rintro (hm | hm | hm)
  · rw [hs c hm] at h
    cases h
  · exact id.not_mem h hm
  · rw [he c hm] at h
    cases h

theorem eq_of_text {a b : Identifier} (h : a.text = b.text) : a = b := by
  cases a
  cases b
  cases h
  rfl

/-- Only the symbol of an identifier gives that identifier back. -/
theorem ofSymbol?_eq_some_iff {name : String} {id : Identifier} :
    ofSymbol? name = some id ↔ name = id.symbol := by
  rw [ofSymbol?, ← String.toList_inj, toList_symbol]
  constructor
  · intro h
    split at h
    · rename_i inner hi
      cases hp : parse (String.ofList inner) with
      | error error =>
        rw [hp] at h
        cases h
      | ok found =>
        rw [hp] at h
        cases h
        rw [Text.stripStart_bind_stripEnd_eq_some.mp hi, ← parse_eq_ok_iff.mp hp,
          String.toList_ofList]
    · cases h
  · intro h
    simp only [Text.stripStart_bind_stripEnd_eq_some.mpr h, String.ofList_toList, parse_text]
    rfl

/-! ## Quotation -/

theorem escape_of_mayContinue {c : Char} (h : mayContinue c = true) : Text.escape '"' c = [c] := by
  have hne : ∀ d, mayContinue d = false → c ≠ d := by
    rintro d hd rfl
    rw [hd] at h
    cases h
  obtain ⟨hl, hu⟩ := toNat_of_mayContinue h
  have hs : Text.isShown c = true := by
    rw [Text.isShown, if_pos hu, decide_eq_true_eq]
    exact hl
  rw [Text.escape, if_neg (hne _ (by decide)), if_neg (hne _ (by decide)),
    if_neg (hne _ (by decide)), if_neg (hne _ (by decide)), if_neg (hne _ (by decide)),
    if_neg (hne _ (by decide)), if_pos hs]

theorem flatMap_escape {l : List Char} (h : ∀ c ∈ l, mayContinue c = true) :
    l.flatMap (Text.escape '"') = l := by
  induction l with
  | nil => rfl
  | cons c l ih =>
    obtain ⟨hc, hr⟩ := List.forall_mem_cons.mp h
    rw [List.flatMap_cons, escape_of_mayContinue hc, ih hr]
    rfl

/-- Inside quotes an identifier is written as it is. -/
theorem toList_quoted (id : Identifier) :
    (Text.quoted id.text).toList = '"' :: (id.text.toList ++ ['"']) := by
  rw [Text.toList_quoted, Text.enclose, flatMap_escape fun c hc => mayContinue_of_mem hc]

/-! ## The order of identifiers -/

/-- One identifier comes before another: by their bytes. -/
def Before (a b : Identifier) : Prop := Utf8.encode a.text < Utf8.encode b.text

theorem Before.trans {a b c : Identifier} (hab : a.Before b) (hbc : b.Before c) : a.Before c :=
  List.lt_trans hab hbc

theorem Before.ne {a b : Identifier} (h : a.Before b) : a ≠ b := by
  rintro rfl
  exact List.lt_irrefl _ h

theorem compare_eq_lt_iff {a b : Identifier} : a.compare b = .lt ↔ a.Before b :=
  Utf8.compare_eq_lt_iff

theorem compare_eq_eq_iff {a b : Identifier} : a.compare b = .eq ↔ a = b := by
  rw [compare, Utf8.compare_eq_eq_iff]
  exact ⟨eq_of_text, congrArg text⟩

theorem compare_eq_gt_iff {a b : Identifier} : a.compare b = .gt ↔ b.Before a :=
  Utf8.compare_eq_gt_iff

end HandlerRegistry.Identifier
