import HandlerRegistry.Proofs.Identifier
import Mathlib.Computability.RegularExpressions

/-! # The pattern of identifiers

An identifier is a word of the regular expression `[A-Za-z_][A-Za-z0-9_]*`, and whatever else is
refused with its first fault from the left (`Faulty`). The symbol of an identifier is `process_`,
the identifier and `_request`, and it is read back from nothing else (`symbols_invert_names`). -/

namespace HandlerRegistry.Identifier
set_option autoImplicit false

/-! ## The regular expression -/

/-- The characters `[A-Za-z_]`. -/
def starts : List Char := "ABCDEFGHIJKLMNOPQRSTUVWXYZabcdefghijklmnopqrstuvwxyz_".toList

/-- The characters `[A-Za-z0-9_]`. -/
def continues : List Char := starts ++ "0123456789".toList

def oneOf (chars : List Char) : RegularExpression Char := (chars.map .char).sum

/-- The regular expression `[A-Za-z_][A-Za-z0-9_]*`. -/
def pattern : RegularExpression Char := oneOf starts * (oneOf continues).star

theorem mem_oneOf {chars word : List Char} :
    word ∈ (oneOf chars).matches' ↔ ∃ c ∈ chars, word = [c] := by
  induction chars with
  | nil => simp [oneOf]
  | cons c chars ih =>
    unfold oneOf at ih ⊢
    rw [List.map_cons, List.sum_cons, RegularExpression.matches'_add, Language.mem_add, ih]
    simp only [List.mem_cons, exists_eq_or_imp]
    rfl

theorem mem_star_oneOf {chars word : List Char} :
    word ∈ (oneOf chars).star.matches' ↔ ∀ c ∈ word, c ∈ chars := by
  rw [RegularExpression.matches'_star, Language.mem_kstar]
  constructor
  · rintro ⟨parts, rfl, hp⟩ c hc
    obtain ⟨part, hm, hc⟩ := List.mem_flatten.mp hc
    obtain ⟨d, hd, rfl⟩ := mem_oneOf.mp (hp part hm)
    rwa [List.mem_singleton.mp hc]
  · intro h
    have he : word = (word.map fun c => [c]).flatten := by
      rw [← List.flatMap_def, List.flatMap_singleton']
    refine ⟨word.map fun c => [c], he, fun part hm => ?_⟩
    obtain ⟨c, hc, rfl⟩ := List.mem_map.mp hm
    exact mem_oneOf.mpr ⟨c, h c hc, rfl⟩

theorem mem_pattern {word : List Char} : word ∈ pattern.matches' ↔
    ∃ first rest, word = first :: rest ∧ first ∈ starts ∧ ∀ c ∈ rest, c ∈ continues := by
  rw [pattern, RegularExpression.matches'_mul, Language.mem_mul]
  constructor
  · rintro ⟨head, hh, rest, hr, rfl⟩
    obtain ⟨first, hf, rfl⟩ := mem_oneOf.mp hh
    exact ⟨first, rest, rfl, hf, mem_star_oneOf.mp hr⟩
  · rintro ⟨first, rest, rfl, hf, hr⟩
    exact ⟨[first], mem_oneOf.mpr ⟨first, hf, rfl⟩, rest, mem_star_oneOf.mpr hr, rfl⟩

/-! ## Characters -/

/-- A class of ASCII characters is settled by its members among the first 128 code points. -/
theorem mem_iff_of_ascii {admits : Char → Bool} {chars : List Char}
    (ha : ∀ c, admits c = true → c.toNat < 128) (hc : chars.all (·.toNat < 128) = true)
    (h : ∀ n < 128, admits (Char.ofNat n) = decide (Char.ofNat n ∈ chars)) (c : Char) :
    admits c = true ↔ c ∈ chars := by
  by_cases hn : c.toNat < 128
  · have he := h c.toNat hn
    rw [Char.ofNat_toNat] at he
    rw [he, decide_eq_true_iff]
  · have hc : c ∈ chars → c.toNat < 128 := fun hm =>
      of_decide_eq_true (List.all_eq_true.mp hc c hm)
    exact iff_of_false (fun h => hn (ha c h)) fun h => hn (hc h)

theorem mayContinue_iff {c : Char} : mayContinue c = true ↔ c ∈ continues := by
  refine mem_iff_of_ascii (fun c h => ?_) (by decide) (by decide +kernel) c
  have hn := (toNat_of_mayContinue h).2
  omega

theorem mayStart_iff {c : Char} : mayStart c = true ↔ c ∈ starts := by
  refine mem_iff_of_ascii (fun c h => ?_) (by decide) (by decide +kernel) c
  have hn := (toNat_of_mayContinue (mayContinue_of_mayStart h)).2
  omega

/-! ## Names and their faults -/

theorem isName_iff {name : List Char} : isName name = true ↔ name ∈ pattern.matches' := by
  rw [mem_pattern]
  cases name with
  | nil => simp [isName]
  | cons first rest =>
    simp only [isName, Bool.and_eq_true, List.all_eq_true, mayStart_iff, mayContinue_iff,
      List.cons.injEq]
    constructor
    · rintro ⟨hf, hr⟩
      exact ⟨first, rest, ⟨rfl, rfl⟩, hf, hr⟩
    · rintro ⟨_, _, ⟨rfl, rfl⟩, hf, hr⟩
      exact ⟨hf, hr⟩

/-- The fault of a name: that there is nothing, or else the leftmost character that cannot stand
where it does. -/
inductive Faulty : List Char → IdentifierError → Prop where
  | empty : Faulty [] .empty
  | start {first : Char} {rest : List Char} (hf : first ∉ starts) :
      Faulty (first :: rest) (.invalidStart first)
  | char {first c : Char} {before after : List Char} (hf : first ∈ starts)
      (hb : ∀ d ∈ before, d ∈ continues) (hc : c ∉ continues) :
      Faulty (first :: (before ++ c :: after)) (.invalidChar c)

theorem fault_eq_some_iff {name : List Char} {error : IdentifierError} :
    fault name = some error ↔ Faulty name error := by
  constructor
  · intro h
    cases name with
    | nil =>
      cases h
      exact .empty
    | cons first rest =>
      rw [fault] at h
      split at h
      · rename_i hf
        obtain ⟨c, hc, rfl⟩ := Option.map_eq_some_iff.mp h
        obtain ⟨hn, before, after, rfl, hb⟩ := List.find?_eq_some_iff_append.mp hc
        refine .char (mayStart_iff.mp hf) (fun d hd => ?_) fun hm => ?_
        · have hd := hb d hd
          simpa [mayContinue_iff] using hd
        · simp [mayContinue_iff.mpr hm] at hn
      · rename_i hf
        cases h
        exact .start fun hm => hf (mayStart_iff.mpr hm)
  · rintro (_ | hf | ⟨hf, hb, hc⟩)
    · rfl
    · rw [fault, if_neg fun hm => hf (mayStart_iff.mp hm)]
    · rw [fault, if_pos (mayStart_iff.mpr hf)]
      have hn := Bool.eq_false_iff.mpr fun hm => hc (mayContinue_iff.mp hm)
      refine Option.map_eq_some_iff.mpr
        ⟨_, List.find?_eq_some_iff_append.mpr ⟨?_, _, _, rfl, ?_⟩, rfl⟩
      · rw [hn]
        rfl
      · intro d hd
        rw [mayContinue_iff.mpr (hb d hd)]
        rfl

/-! ## Symbols -/

theorem ofSymbol?_symbol (id : Identifier) : ofSymbol? id.symbol = some id :=
  ofSymbol?_eq_some_iff.mpr rfl

theorem symbol_injective : Function.Injective symbol := by
  intro a b h
  have ha := ofSymbol?_symbol a
  rw [h, ofSymbol?_symbol b] at ha
  exact (Option.some.inj ha).symm

theorem exists_parse_iff {text : String} :
    (∃ id, parse text = .ok id) ↔ text.toList ∈ pattern.matches' := by
  rw [← isName_iff, ← fault_eq_none_iff]
  constructor
  · rintro ⟨id, h⟩
    rw [parse_eq_ok_iff.mp h]
    exact id.faultless
  · intro h
    exact ⟨⟨text, h⟩, parse_eq_ok_iff.mpr rfl⟩

theorem exists_ofSymbol?_iff {name : String} : (∃ id, ofSymbol? name = some id) ↔
    ∃ text : String, text.toList ∈ pattern.matches' ∧ name = "process_" ++ text ++ "_request" := by
  constructor
  · rintro ⟨id, h⟩
    refine ⟨id.text, ?_, ofSymbol?_eq_some_iff.mp h⟩
    exact exists_parse_iff.mp ⟨id, parse_text id⟩
  · rintro ⟨text, h, rfl⟩
    obtain ⟨id, hp⟩ := exists_parse_iff.mpr h
    rw [parse_eq_ok_iff.mp hp]
    exact ⟨id, ofSymbol?_symbol id⟩

/-- A text in which the beginning and the end of a symbol would overlap or meet is none. -/
theorem ofSymbol?_of_short {name : String}
    (h : name.length ≤ "process_".length + "_request".length) : ofSymbol? name = none := by
  cases hn : ofSymbol? name with
  | none => rfl
  | some id =>
    obtain ⟨first, rest, hf, -, -⟩ := id.exists_chars
    have hp : 0 < id.text.length := by
      rw [← String.length_toList, hf]
      exact Nat.succ_pos _
    rw [ofSymbol?_eq_some_iff.mp hn, symbol, String.length_append, String.length_append] at h
    unfold symbolStart symbolEnd at h
    omega

/-- Names and symbols are two spellings of the same identifiers. -/
structure SymbolsInvertNames : Prop where
  /-- Exactly the words of the pattern are identifiers. -/
  exists_parse : ∀ text : String, (∃ id, parse text = .ok id) ↔ text.toList ∈ pattern.matches'
  parse_ok : ∀ (text : String) (id : Identifier), parse text = .ok id ↔ text = id.text
  /-- Any other text is refused with its first fault. -/
  parse_error : ∀ (text : String) (error : IdentifierError),
    parse text = .error error ↔ Faulty text.toList error
  ofSymbol?_eq : ∀ (name : String) (id : Identifier), ofSymbol? name = some id ↔ name = id.symbol
  injective : Function.Injective symbol
  ofSymbol?_symbol : ∀ id : Identifier, ofSymbol? id.symbol = some id
  exists_ofSymbol? : ∀ name : String, (∃ id, ofSymbol? name = some id) ↔
    ∃ text : String, text.toList ∈ pattern.matches' ∧ name = "process_" ++ text ++ "_request"
  short : ∀ name : String, name.length ≤ "process_".length + "_request".length →
    ofSymbol? name = none

/-- Exactly the words of the pattern are identifiers, and any other text is refused with its first
fault. The symbol of an identifier gives the identifier back, and no other text gives one, least of
all a text in which the beginning and the end of a symbol would overlap. -/
theorem symbols_invert_names : SymbolsInvertNames where
  exists_parse _ := exists_parse_iff
  parse_ok _ _ := parse_eq_ok_iff
  parse_error _ _ := parse_eq_error_iff.trans fault_eq_some_iff
  ofSymbol?_eq _ _ := ofSymbol?_eq_some_iff
  injective := symbol_injective
  ofSymbol?_symbol := ofSymbol?_symbol
  exists_ofSymbol? _ := exists_ofSymbol?_iff
  short _ := ofSymbol?_of_short

theorem overlapping_parts_are_no_symbol :
    ofSymbol? "process_request" = none ∧
      ofSymbol? "process_a_request_request" = some ⟨"a_request", by decide⟩ ∧
      parse "ftpé2" = .error (.invalidChar 'é') := by
  have hb : ∀ d ∈ ['t', 'p'], d ∈ continues :=
    List.forall_mem_cons.mpr ⟨by decide, List.forall_mem_singleton.mpr (by decide)⟩
  refine ⟨symbols_invert_names.short _ (by decide),
    symbols_invert_names.ofSymbol?_symbol ⟨"a_request", by decide⟩,
    (symbols_invert_names.parse_error _ _).mpr ?_⟩
  exact @Faulty.char 'f' 'é' ['t', 'p'] ['2'] (by decide) hb (by decide)

end HandlerRegistry.Identifier
