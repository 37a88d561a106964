import HandlerRegistry.Proofs.Capacity
import HandlerRegistry.Proofs.CommandLine.Arguments
import HandlerRegistry.Proofs.Config.CapacityKey
import HandlerRegistry.Proofs.Text.Utf8

/-! # The routes of a capacity

A capacity comes from the option for it, or from a document, where it may also be an integer. The
option takes the texts that are capacities and no others, also where its value is an argument of its
own that looks like an option. A document takes these texts and the integers that are slot counts
(`capacity_texts_agree`). -/

namespace HandlerRegistry.CommandLine
set_option autoImplicit false

variable {text : String}

/-! ## The value of a field that waits for it -/

namespace Reading
variable {reading : Reading} {fault : Fault}

theorem field_of_settle_error (h : reading.settle = .error fault) (field : Field)
    (value : Option (List UInt8)) : reading.field field value = .error fault := by
  simp only [Reading.field, h]

theorem verbose_of_settle_error (h : reading.settle = .error fault) :
    reading.verbose = .error fault := by
  simp only [verbose, h]

theorem help_of_settle_error (h : reading.settle = .error fault) :
    reading.help = .error fault := by
  simp only [help, h]

theorem long_of_settle_error (h : reading.settle = .error fault) (name : List UInt8)
    (value : Option (List UInt8)) : ∃ fault, reading.long name value = .error fault := by
  unfold long
  split
  · exact ⟨_, rfl⟩
  · exact ⟨_, field_of_settle_error h _ _⟩
  · exact ⟨_, verbose_of_settle_error h⟩
  · exact ⟨_, help_of_settle_error h⟩
  · exact ⟨_, rfl⟩

theorem letters_of_settle_error (h : reading.settle = .error fault) (letter : UInt8)
    (rest : List UInt8) : ∃ fault, reading.letters (letter :: rest) = .error fault := by
  unfold letters
  split
  · exact ⟨_, rfl⟩
  · exact ⟨_, field_of_settle_error h _ _⟩
  · simp only [verbose_of_settle_error h]
    exact ⟨_, rfl⟩
  · exact ⟨_, help_of_settle_error h⟩

/-- While a field waits for its value, an argument is that value, or two dashes, or at fault. -/
theorem step_of_settle_error (h : reading.settle = .error fault)
    (unended : reading.ended = false) (argument : Argument) :
    reading.step argument = reading.plain argument ∨
      reading.step argument = .ok { reading with ended := true } ∨
      ∃ fault, reading.step argument = .error fault := by
  unfold step
  rw [unended, if_neg Bool.false_ne_true]
  split
  · exact .inr (.inl rfl)
  · split
    · split
      · exact .inr (.inr (long_of_settle_error h _ _))
      · split
        · exact .inr (.inr (letters_of_settle_error h _ _))
        · exact .inl rfl
    · exact .inl rfl

theorem step_of_head?_ne (unended : reading.ended = false) {argument : Argument}
    (h : argument.head? ≠ some dash) : reading.step argument = reading.plain argument := by
  unfold step
  rw [unended, if_neg Bool.false_ne_true]
  split
  · rename_i he
    subst he
    exact absurd rfl h
  · split
    · rename_i a b rest _
      have ha : a ≠ dash := by
        rintro rfl
        exact h rfl
      rw [if_neg fun hd => ha hd.1, if_neg ha]
    · rfl

end Reading

/-! ## The option for the capacity -/

/-- The option for the capacity, without its value. -/
def capacityOption : Argument :=
  Reading.dash :: Reading.dash :: Utf8.encode (Flag.valued .capacity).longName

/-- The two ways to give the option a value. -/
def capacityForms (text : String) : List (List Argument) :=
  [[capacityOption ++ Reading.equalsSign :: Utf8.encode text],
    [capacityOption, Utf8.encode text]]

theorem give_capacity_eq_ok_iff {settings : Settings} :
    Settings.unset.give .capacity (some (Utf8.encode text)) = .ok settings ↔
      ∃ capacity, Capacity.parse text = .ok capacity ∧
        settings = { Settings.unset with capacity := some capacity } := by
  have hf : Settings.unset.isSet .capacity = false := rfl
  simp only [Settings.give, hf, Bool.false_eq_true, if_false, Settings.set, Settings.capacityValue,
    Utf8.decode?_encode]
  cases Capacity.parse text with
  | error error => simp [Except.map]
  | ok capacity => simp [Except.map, eq_comm]

/-- The settings of a field whose value is all that the arguments give. -/
theorem parseArguments_joined (text : String) :
    parseArguments [capacityOption ++ Reading.equalsSign :: Utf8.encode text] =
      Settings.unset.give .capacity (some (Utf8.encode text)) := by
  have hn := equalsSign_not_mem (.valued .capacity)
  have hs : Reading.start.step (capacityOption ++ Reading.equalsSign :: Utf8.encode text) =
      (Settings.unset.give .capacity (some (Utf8.encode text))).map
        fun settings => ⟨settings, none, false⟩ := by
    rw [capacityOption, List.cons_append, List.cons_append, Given.step_dashes _ rfl (by simp),
      Reading.splitLong, Text.splitFirst_eq_some.mpr ⟨rfl, hn⟩]
    simp only [Reading.long, ofLongName?_longName]
    rfl
  rw [parseArguments, Reading.steps, hs]
  cases Settings.unset.give .capacity (some (Utf8.encode text)) <;> rfl

/-- The capacity named, and its value not read yet. -/
def waiting : Reading := ⟨.unset, some (.capacity, none), false⟩

theorem step_capacityOption : Reading.start.step capacityOption = .ok waiting := by
  have hs : Reading.splitLong (Utf8.encode (Flag.valued .capacity).longName) =
      (Utf8.encode (Flag.valued .capacity).longName, none) := by decide
  rw [capacityOption, Given.step_dashes _ rfl (encode_longName_ne_nil _), hs]
  simp only [Reading.long, ofLongName?_longName]
  rfl

theorem parseArguments_separate {value : Argument}
    (plain : waiting.step value = waiting.plain value) :
    parseArguments [capacityOption, value] = Settings.unset.give .capacity (some value) := by
  have hp : waiting.plain value = .ok ⟨.unset, some (.capacity, some value), false⟩ := rfl
  simp only [parseArguments, Reading.steps, step_capacityOption, plain, hp, Reading.settle]
  cases Settings.unset.give .capacity (some value) <;> rfl

/-- A value that is not read as the value of the option is no value for it. -/
theorem parseArguments_astray {value : Argument}
    (astray : waiting.step value ≠ waiting.plain value) (settings : Settings) :
    parseArguments [capacityOption, value] ≠ .ok settings := by
  have hw : waiting.settle = .error .invalidValue := rfl
  intro h
  obtain hs | hs | ⟨fault, hs⟩ := waiting.step_of_settle_error hw rfl value
  · exact astray hs
  · simp only [parseArguments, Reading.steps, step_capacityOption, hs] at h
    cases h
  · simp only [parseArguments, Reading.steps, step_capacityOption, hs] at h
    cases h

theorem parseArguments_capacity_iff {arguments : List Argument} {settings : Settings}
    (h : arguments ∈ capacityForms text) :
    parseArguments arguments = .ok settings ↔ ∃ capacity,
      Capacity.parse text = .ok capacity ∧
        settings = { Settings.unset with capacity := some capacity } := by
  rw [capacityForms, List.mem_pair] at h
  obtain rfl | rfl := h
  · rw [parseArguments_joined, give_capacity_eq_ok_iff]
  · by_cases hs : waiting.step (Utf8.encode text) = waiting.plain (Utf8.encode text)
    · rw [parseArguments_separate hs, give_capacity_eq_ok_iff]
    · -- Only a text that begins like an option goes astray, and that is no capacity.
      have hd : text.toList.head? = some '-' := by
        by_contra hn
        refine hs (waiting.step_of_head?_ne rfl fun he => hn ?_)
        exact Utf8.head?_of_encode (by decide) he
      refine iff_of_false (parseArguments_astray hs settings) ?_
      rintro ⟨capacity, hc, -⟩
      exact Capacity.head?_ne_minus hc hd

/-! ## All routes -/

/-- A text is a capacity if it is `auto` in letters of either case, or a number below `2 ^ 64` in
decimal digits after at most one plus sign; every other text is refused, and a capacity is read from
its own text. The option for the capacity takes a text, in either form, if and only if it is a
capacity, and so does a document that gives the text as its capacity and that nothing else makes
unusable. Such a document with an integer is accepted if and only if the integer is some `n` below
`2 ^ 64`, with the capacity that the text of `n` is. -/
theorem capacity_texts_agree :
    (∀ text : String,
      (Capacity.parse text = .ok .fromCount ↔ Capacity.SpellsAuto text) ∧
      (∀ slots, Capacity.parse text = .ok (.fixed slots) ↔
        Capacity.WritesCount text slots.toNat) ∧
      (∀ error, Capacity.parse text = .error error ↔ error = ⟨text⟩ ∧
        ¬ Capacity.SpellsAuto text ∧ ∀ n < 2 ^ 64, ¬ Capacity.WritesCount text n) ∧
      (∀ arguments ∈ capacityForms text, ∀ settings,
        parseArguments arguments = .ok settings ↔ ∃ capacity,
          Capacity.parse text = .ok capacity ∧
            settings = { Settings.unset with capacity := some capacity }) ∧
      ∀ tree path, Config.SetsCapacity tree path (.string text) → ∀ capacity,
        (∃ config, Config.load tree path = .ok config ∧ config.capacity = capacity) ↔
          Capacity.parse text = .ok capacity) ∧
    (∀ capacity : Capacity, Capacity.parse capacity.text = .ok capacity) ∧
    ∀ tree path written, Config.SetsCapacity tree path (.integer written) → ∀ capacity,
      (∃ config, Config.load tree path = .ok config ∧ config.capacity = capacity) ↔
        ∃ n : Nat, n < 2 ^ 64 ∧ written = n ∧ Capacity.parse n.repr = .ok capacity := by
  refine ⟨fun text => ⟨?_, ?_, ?_, ?_, ?_⟩, ?_, ?_⟩
  · exact Capacity.parse_eq_fromCount_iff
  · intro slots
    exact Capacity.parse_eq_fixed_iff
  · intro error
    exact Capacity.parse_eq_error_iff
  · intro arguments h settings
    exact parseArguments_capacity_iff h
  · intro tree path h capacity
    rw [h.exists_load_iff, Config.readCapacity_string_iff]
  · exact Capacity.parse_capacityText
  · intro tree path written h capacity
    rw [h.exists_load_iff, Config.readCapacity_integer_iff]
    constructor
    · rintro ⟨slots, hw, hc⟩
      exact ⟨slots.toNat, slots.toNat_lt, hw, Capacity.parse_repr_iff.mpr hc⟩
    · rintro ⟨n, hn, hw, hc⟩
      have hs : (UInt64.ofNat n).toNat = n := UInt64.toNat_ofNat_of_lt' hn
      rw [← hs] at hw hc
      exact ⟨_, hw, Capacity.parse_repr_iff.mp hc⟩

/-! ### Zeros after a plus sign, and the greatest integer -/

namespace Sample

/-- One more setting, so that the capacity is not alone in its document. -/
def beside : Config.Writing := ⟨none, some (.ofText "x.h"), none, none⟩

def paddedSeven : Toml.QuotedString := .literal "+007" (by decide)

def padded : FileTree := Config.Sample.holding
  ([].map Config.Setting.line ++ ⟨"capacity", paddedSeven.written⟩ ::
    beside.settings.map Config.Setting.line)

def greatestDigits : List Char := [] ++ ['_'].intercalate ["18446744073709551615".toList]

def widest : FileTree := Config.Sample.holding
  (beside.settings.map Config.Setting.line ++ ⟨"capacity", greatestDigits⟩ ::
    [].map Config.Setting.line)

end Sample

theorem Sample.setsCapacity_padded :
    Config.SetsCapacity Sample.padded (Path.ofText "room.toml") (.string "+007") := by
  have hp : ([] ++ Sample.beside.settings).Perm Sample.beside.settings := .refl _
  exact Config.setsCapacity_of_lines rfl hp Sample.paddedSeven.valueScan_written
    (by decide +kernel)

theorem Sample.setsCapacity_widest :
    Config.SetsCapacity Sample.widest (Path.ofText "room.toml")
      (.integer (18446744073709551615 : Nat)) := by
  have hp : (Sample.beside.settings ++ []).Perm Sample.beside.settings := by
    rw [List.append_nil]
  have hi : Toml.IsInteger Sample.greatestDigits 18446744073709551615 :=
    .decimal (.inl rfl) (by decide) (by decide +kernel)
  exact Config.setsCapacity_of_lines rfl hp hi.valueScan (by decide +kernel)

theorem padded_count_agrees :
    (∃ config, Config.load Sample.padded (Path.ofText "room.toml") = .ok config ∧
      config.capacity = .fixed 7) ∧
    parseArguments [capacityOption, Utf8.encode "+007"] =
      .ok { Settings.unset with capacity := some (.fixed 7) } ∧
    ∃ config, Config.load Sample.widest (Path.ofText "room.toml") = .ok config ∧
      config.capacity = .fixed 0xFFFFFFFFFFFFFFFF := by
  obtain ⟨htext, -, hinteger⟩ := capacity_texts_agree
  obtain ⟨-, hfixed, -, hflag, hfile⟩ := htext "+007"
  have hw : Capacity.WritesCount "+007" (7 : UInt64).toNat :=
    ⟨['0', '0', '7'], .inr rfl, [0, 0, 7], by decide, by decide, rfl, by decide⟩
  have hseven := (hfixed 7).mpr hw
  have hn : (0xFFFFFFFFFFFFFFFF : UInt64).toNat = 18446744073709551615 := by decide
  have hgreatest : Capacity.parse (18446744073709551615 : Nat).repr =
      .ok (.fixed 0xFFFFFFFFFFFFFFFF) := by
    rw [← hn]
    exact Capacity.parse_repr_iff.mpr rfl
  refine ⟨?_, ?_, ?_⟩
  · exact (hfile _ _ Sample.setsCapacity_padded _).mpr hseven
  · exact (hflag _ (by simp [capacityForms]) _).mpr ⟨_, hseven, rfl⟩
  · exact (hinteger _ _ _ Sample.setsCapacity_widest _).mpr
      ⟨18446744073709551615, by decide, rfl, hgreatest⟩

end HandlerRegistry.CommandLine
