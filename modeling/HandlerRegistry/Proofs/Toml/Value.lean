import HandlerRegistry.Proofs.Toml.Quotation
import HandlerRegistry.Toml.Document

/-! # The scan of a value is local

Words, strings, arrays and tables in braces are read up to their own end (`local_valueScan`). So a
text that is a value, with brackets of any depth, is also one when it is followed by the end of its
line, and the same one; if it is too deep it is refused there as well (`IsValue.valueScan_line`). -/

namespace HandlerRegistry.Toml
set_option autoImplicit false

/-! ## Words -/

theorem isWordChar_of_isDigit {c : Char} (h : c.isDigit = true) : isWordChar c = true := by
  simp [isWordChar, Char.isAlphanum, h]

theorem wordScan_date_time {date time rest : List Char} (hd : ∀ c ∈ date, isWordChar c = true)
    (ha : afterDate? date = some []) (ht : ∀ c ∈ time, isWordChar c = true)
    (hc : ∃ c digits, time = c :: digits ∧ c.isDigit = true)
    (hr : ∀ c, rest.head? = some c → isWordChar c = false) :
    wordScan (date ++ ' ' :: (time ++ rest)) = (date ++ ' ' :: time, rest) := by
  obtain ⟨c, digits, rfl, hc⟩ := hc
  have hb : ∀ d, (' ' :: (c :: digits ++ rest)).head? = some d → isWordChar d = false := by
    intro d he
    cases he
    decide
  obtain ⟨hdt, hdd⟩ := span_append hd hb
  obtain ⟨htt, htd⟩ := span_append ht hr
  rw [wordScan, hdt, hdd, ha]
  simp only [List.cons_append] at htt htd ⊢
  rw [if_pos hc, htt, htd]

theorem wordScan_word {word rest : List Char} (hw : ∀ c ∈ word, isWordChar c = true)
    (hr : ∀ c, rest.head? = some c → isWordChar c = false)
    (ha : afterDate? word = some [] → ∀ c after, rest = ' ' :: c :: after → c.isDigit = false) :
    wordScan (word ++ rest) = (word, rest) := by
  obtain ⟨ht, hd⟩ := span_append hw hr
  rw [wordScan, ht, hd]
  split
  · rename_i c after he
    rw [if_neg (Bool.eq_false_iff.mp (ha he c after rfl))]
  · rfl

/-- A word ends before the first character that cannot stand in one. Only a blank between a date and
a time is part of it. -/
theorem exists_taken_of_wordScan (input : List Char) :
    ∃ taken, input = taken ++ (wordScan input).2 ∧
      ∀ ⦃other⦄, Alike (wordScan input).2 other →
        wordScan (taken ++ other) = ((wordScan input).1, other) := by
  obtain ⟨word, rest, rfl, hw, hr⟩ := exists_span isWordChar input
  by_cases h : afterDate? word = some [] ∧ ∃ c after, rest = ' ' :: c :: after ∧ c.isDigit = true
  · obtain ⟨hd, c, after, rfl, hc⟩ := h
    obtain ⟨time, left, he, ht, hl⟩ := exists_span isWordChar (c :: after)
    have hs : ∃ c digits, time = c :: digits ∧ c.isDigit = true := by
      cases time with
      | nil =>
        have hn := hl c (by rw [← List.nil_append left, ← he]; rfl)
        rw [isWordChar_of_isDigit hc] at hn
        cases hn
      | cons d digits =>
        obtain ⟨rfl, -⟩ := List.cons.inj he
        exact ⟨c, digits, rfl, hc⟩
    rw [he, wordScan_date_time hw hd ht hs hl]
    refine ⟨word ++ ' ' :: time, by rw [List.append_assoc, List.cons_append], fun other ha => ?_⟩
    rw [List.append_assoc, List.cons_append]
    exact wordScan_date_time hw hd ht hs (ha.head_of_head (by decide) hl)
  · have hn : afterDate? word = some [] →
        ∀ c after, rest = ' ' :: c :: after → c.isDigit = false := by
      intro hd c after he
      rw [← Bool.not_eq_true]
      exact fun hc => h ⟨hd, c, after, he, hc⟩
    rw [wordScan_word hw hr hn]
    refine ⟨word, rfl, fun other ha => wordScan_word hw (ha.head_of_head (by decide) hr) ?_⟩
    rintro hd c after rfl
    by_cases hc : c = '\n'
    · rw [hc]
      decide
    · obtain ⟨before, he⟩ := ha.of_cons_cons (by decide) hc
      exact hn hd c before he

theorem local_scalarScan : Local scalarScan := by
  intro input value left h
  obtain ⟨found, hf, he⟩ := Option.map_eq_some_iff.mp h
  cases he
  obtain ⟨taken, ht, hr⟩ := exists_taken_of_wordScan input
  refine ⟨taken, ht, fun other ha => ?_⟩
  rw [scalarScan, hr ha, hf, Option.map_some]

/-! ## First characters -/

/-- Whether a key or a value can begin with a character. -/
def isStart (c : Char) : Bool := isWordChar c || ['[', '\x7b', '"', '\''].contains c

/-- A scan that reads nothing that does not begin like a key or a value. -/
def Starts {α : Type} (scan : Scan α) : Prop :=
  ∀ ⦃input⦄, (scan input).isSome → ∃ c rest, input = c :: rest ∧ isStart c = true

theorem isStart_of_isBareKeyChar {c : Char} (h : isBareKeyChar c = true) : isStart c = true := by
  rw [isBareKeyChar, Bool.or_eq_true, Bool.or_eq_true] at h
  rcases h with (h | h) | h <;> simp [isStart, isWordChar, h]

theorem starts_keyPart : Starts keyPart := by
  intro input h
  obtain ⟨bare, rest, rfl, hb, hr⟩ := exists_span isBareKeyChar input
  cases bare with
  | nil =>
    have ht : rest.takeWhile isBareKeyChar = [] := (span_append hb hr).1
    rw [List.nil_append] at h ⊢
    rw [keyPart.eq_def] at h
    split at h
    · exact ⟨'"', _, rfl, by decide⟩
    · exact ⟨'\'', _, rfl, by decide⟩
    · rw [ht] at h
      cases h
  | cons c bare => exact ⟨c, _, rfl, isStart_of_isBareKeyChar (hb c List.mem_cons_self)⟩

theorem starts_keyScan : Starts keyScan := by
  intro input h
  apply starts_keyPart
  rw [keyScan] at h
  split at h
  · cases h
  · rename_i he
    rw [he, Option.isSome_some]

theorem starts_scalarScan : Starts scalarScan := by
  intro input h
  obtain ⟨word, rest, rfl, hw, hr⟩ := exists_span isWordChar input
  cases word with
  | nil =>
    have hs : wordScan ([] ++ rest) = ([], rest) :=
      wordScan_word hw hr fun ha => absurd ha (by decide)
    have hn : readWord [] = none := by decide
    rw [scalarScan, hs, hn] at h
    cases h
  | cons c word =>
    refine ⟨c, _, rfl, ?_⟩
    rw [isStart, hw c List.mem_cons_self, Bool.true_or]

/-! ## Blanks, line ends and comments -/

/-- What is skipped before a character is skipped before any rest that begins with it. -/
theorem exists_taken_of_skipVoidFrom {inComment : Bool} {input left : List Char} {c : Char}
    (h : skipVoidFrom inComment input = c :: left) (hc : c ≠ '\r') :
    ∃ skipped, input = skipped ++ c :: left ∧
      ∀ other, skipVoidFrom inComment (skipped ++ c :: other) = c :: other := by
  have hstep : ∀ {inComment next : Bool} {d : Char} {rest : List Char},
      (∀ rest, skipVoidFrom inComment (d :: rest) = skipVoidFrom next rest) →
      (∃ skipped, rest = skipped ++ c :: left ∧
        ∀ other, skipVoidFrom next (skipped ++ c :: other) = c :: other) →
      ∃ skipped, d :: rest = skipped ++ c :: left ∧
        ∀ other, skipVoidFrom inComment (skipped ++ c :: other) = c :: other := by
    rintro inComment next d rest hd ⟨skipped, rfl, hs⟩
    exact ⟨d :: skipped, rfl, fun other => by rw [List.cons_append, hd, hs]⟩
  have hopen : ∀ (inComment : Bool) {d : Char} (rest : List Char), d ≠ '\r' →
      skipVoidFrom inComment (d :: rest) = if d == '\n' then skipVoidFrom false rest
        else if inComment then if isPlain d then skipVoidFrom true rest else d :: rest
        else if isBlank d then skipVoidFrom false rest
        else if d == '#' then skipVoidFrom true rest
        else d :: rest :=
    fun inComment d rest hd => skipVoidFrom.eq_2 inComment d rest fun _ he => absurd he hd
  induction inComment, input using skipVoidFrom.induct with
  | case1 inComment rest ih =>
    obtain ⟨skipped, he, hs⟩ := ih h
    exact ⟨'\r' :: '\n' :: skipped, congrArg _ (congrArg _ he), hs⟩
  | case2 inComment d rest _ hd ih =>
    obtain rfl : d = '\n' := beq_iff_eq.mp hd
    exact hstep (fun rest => rfl) (ih h)
  | case3 d rest _ hn hp ih =>
    have hd : d ≠ '\r' := ne_of_passes hp (by decide)
    have hs : ∀ rest, skipVoidFrom true (d :: rest) = skipVoidFrom true rest := by
      intro rest
      rw [hopen true rest hd, if_neg hn, if_pos rfl, if_pos hp]
    rw [hs] at h
    exact hstep hs (ih h)
  | case4 d rest hne hn hp =>
    rw [skipVoidFrom.eq_2 _ _ _ hne, if_neg hn, if_pos rfl, if_neg hp] at h
    obtain ⟨rfl, rfl⟩ := List.cons.inj h
    refine ⟨[], rfl, fun other => ?_⟩
    rw [List.nil_append, hopen true other hc, if_neg hn, if_pos rfl, if_neg hp]
  | case5 inComment d rest _ hn hi hb ih =>
    have hd : d ≠ '\r' := ne_of_passes hb (by decide)
    have hs : ∀ rest, skipVoidFrom inComment (d :: rest) = skipVoidFrom false rest := by
      intro rest
      rw [hopen inComment rest hd, if_neg hn, if_neg hi, if_pos hb]
    rw [hs] at h
    exact hstep hs (ih h)
  | case6 inComment d rest _ hn hi hb hm ih =>
    have hd : d ≠ '\r' := by
      rintro rfl
      exact absurd hm (by decide)
    have hs : ∀ rest, skipVoidFrom inComment (d :: rest) = skipVoidFrom true rest := by
      intro rest
      rw [hopen inComment rest hd, if_neg hn, if_neg hi, if_neg hb, if_pos hm]
    rw [hs] at h
    exact hstep hs (ih h)
  | case7 inComment d rest hne hn hi hb hm =>
    rw [skipVoidFrom.eq_2 _ _ _ hne, if_neg hn, if_neg hi, if_neg hb, if_neg hm] at h
    obtain ⟨rfl, rfl⟩ := List.cons.inj h
    refine ⟨[], rfl, fun other => ?_⟩
    rw [List.nil_append, hopen inComment other hc, if_neg hn, if_neg hi, if_neg hb, if_neg hm]
  | case8 => cases h

theorem exists_taken_of_skipVoid {input left : List Char} {c : Char}
    (h : skipVoid input = c :: left) (hc : c ≠ '\r') : ∃ skipped, input = skipped ++ c :: left ∧
      ∀ other, skipVoid (skipped ++ c :: other) = c :: other :=
  exists_taken_of_skipVoidFrom h hc

section
variable {α : Type} {scan : Scan α}

theorem Local.skipVoid (hl : Local scan) (hs : Starts scan) :
    Local fun input => scan (skipVoid input) := by
  intro input read left h
  obtain ⟨c, rest, hc, hstart⟩ := hs (Option.isSome_of_eq_some h)
  obtain ⟨skipped, hi, hk⟩ := exists_taken_of_skipVoid hc (ne_of_passes hstart (by decide))
  obtain ⟨taken, ht, hr⟩ := hl h
  refine ⟨skipped ++ taken, by rw [List.append_assoc, ← ht, hc, hi], fun other ha => ?_⟩
  rw [hc] at ht
  obtain ⟨after, he, -⟩ :=
    (ht ▸ (ha.append taken).symm).of_cons (ne_of_passes hstart (by decide))
  show scan (Toml.skipVoid (skipped ++ taken ++ other)) = _
  rw [List.append_assoc, he, hk, ← he]
  exact hr ha

theorem Local.pairScan {item : Scan Value} (hl : Local item) (hs : Starts item) :
    Local (pairScan Toml.skipVoid item) := by
  intro input pair left h
  rw [Toml.pairScan] at h
  split at h
  · cases h
  · rename_i key rest hk
    split at h
    · rename_i start he
      obtain ⟨⟨value, after⟩, hv, heq⟩ := Option.map_eq_some_iff.mp h
      cases heq
      obtain ⟨taken, rfl, hr⟩ := local_keyScan hk
      obtain ⟨skipped, rfl, ho⟩ := exists_taken_of_skipVoid he (by decide)
      obtain ⟨others, rfl, hi⟩ := hl.skipVoid hs hv
      refine ⟨taken ++ (skipped ++ '=' :: others), by simp only [List.append_assoc,
        List.cons_append], fun other ha => ?_⟩
      have hal := ((ha.append others).cons '=').append skipped
      rw [List.append_assoc, List.append_assoc, List.cons_append, Toml.pairScan, hr hal]
      simp only [ho, hi ha, Option.map_some]
    · cases h

theorem starts_pairScan (skip : List Char → List Char) (item : Scan Value) :
    Starts (Toml.pairScan skip item) := by
  intro input h
  apply starts_keyScan
  rw [Toml.pairScan] at h
  split at h
  · cases h
  · rename_i hk
    rw [hk, Option.isSome_some]

/-! ## Arrays and tables in braces -/

/-- One of the items between two brackets, or the end of them. -/
def bracketItem (close : Char) (item : Scan α) (input : List Char) :
    Option ((List α × Bool) × List Char) :=
  if (skipVoid input).head? = some close then some (([], true), (skipVoid input).tail)
  else match item (skipVoid input) with
    | none => none
    | some (value, rest) =>
      match skipVoid rest with
      | c :: left =>
        if c = ',' then some (([value], false), left)
        else if c = close then some (([value], true), left)
        else none
      | [] => none

theorem arrayItem_eq (item : Scan Value) : arrayItem item = bracketItem ']' item := by
  funext input
  rw [arrayItem, bracketItem]
  split
  · rename_i rest he
    rw [he, List.head?_cons, if_pos rfl, List.tail_cons]
  · rename_i hne
    rw [if_neg fun hh => (List.head?_eq_some_iff.mp hh).elim hne]
    split
    · rename_i hi
      rw [hi]
    · rename_i value rest hi
      simp only [hi]
      cases hr : skipVoid rest with
      | nil => rfl
      | cons c left =>
        split
        · rename_i he
          obtain ⟨rfl, rfl⟩ := List.cons.inj he
          rfl
        · rename_i he
          obtain ⟨rfl, rfl⟩ := List.cons.inj he
          rfl
        · rename_i hc hk
          simp only [if_neg fun e => hc left (congrArg (· :: left) e),
            if_neg fun e => hk left (congrArg (· :: left) e)]

theorem inlineItem_eq (item : Scan Value) :
    inlineItem item = bracketItem '\x7d' (Toml.pairScan Toml.skipVoid item) := by
  funext input
  rw [inlineItem, bracketItem]
  split
  · rename_i rest he
    rw [he, List.head?_cons, if_pos rfl, List.tail_cons]
  · rename_i hne
    rw [if_neg fun hh => (List.head?_eq_some_iff.mp hh).elim hne]
    split
    · rename_i hi
      rw [hi]
    · rename_i value rest hi
      simp only [hi]
      cases hr : skipVoid rest with
      | nil => rfl
      | cons c left =>
        split
        · rename_i he
          obtain ⟨rfl, rfl⟩ := List.cons.inj he
          rfl
        · rename_i he
          obtain ⟨rfl, rfl⟩ := List.cons.inj he
          rfl
        · rename_i hc hk
          simp only [if_neg fun e => hc left (congrArg (· :: left) e),
            if_neg fun e => hk left (congrArg (· :: left) e)]

theorem bracketItem_cases {close : Char} {item : Scan α} {input left : List Char} {items : List α}
    {done : Bool} (h : bracketItem close item input = some ((items, done), left)) :
    (skipVoid input = close :: left ∧ items = [] ∧ done = true) ∨
      ∃ value rest mark, item (skipVoid input) = some (value, rest) ∧
        skipVoid rest = mark :: left ∧ items = [value] ∧
        (mark = ',' ∧ done = false ∨ mark ≠ ',' ∧ mark = close ∧ done = true) := by
  rw [bracketItem] at h
  split at h
  · rename_i hh
    obtain ⟨rest, he⟩ := List.head?_eq_some_iff.mp hh
    rw [he] at h
    cases h
    exact .inl ⟨he, rfl, rfl⟩
  · split at h
    · cases h
    · rename_i value rest hv
      split at h
      · rename_i mark after hm
        split at h
        · rename_i hc
          cases h
          exact .inr ⟨value, rest, mark, hv, hm, rfl, .inl ⟨hc, rfl⟩⟩
        · rename_i hc
          split at h
          · rename_i hk
            cases h
            exact .inr ⟨value, rest, mark, hv, hm, rfl, .inr ⟨hc, hk, rfl⟩⟩
          · cases h
      · cases h

theorem bracketItem_close {close : Char} (item : Scan α) {input left : List Char}
    (h : skipVoid input = close :: left) :
    bracketItem close item input = some (([], true), left) := by
  rw [bracketItem, h, List.head?_cons, if_pos rfl, List.tail_cons]

theorem bracketItem_item {close mark : Char} (hn : isStart close = false) {item : Scan α}
    (hs : Starts item) {input rest left : List Char} {value : α} {done : Bool}
    (hv : item (skipVoid input) = some (value, rest)) (hm : skipVoid rest = mark :: left)
    (hd : mark = ',' ∧ done = false ∨ mark ≠ ',' ∧ mark = close ∧ done = true) :
    bracketItem close item input = some (([value], done), left) := by
  have hh : (skipVoid input).head? ≠ some close := by
    obtain ⟨c, after, he, hc⟩ := hs (Option.isSome_of_eq_some hv)
    rw [he, List.head?_cons, Ne, Option.some.injEq]
    exact ne_of_passes hc hn
  rw [bracketItem, if_neg hh, hv]
  simp only [hm]
  obtain ⟨hc, rfl⟩ | ⟨hc, hk, rfl⟩ := hd
  · rw [if_pos hc]
  · rw [if_neg hc, if_pos hk]

theorem LocalItem.bracketItem {close : Char} (hc : close ≠ '\r') (hn : isStart close = false)
    {item : Scan α} (hl : Local item) (hs : Starts item) :
    LocalItem (bracketItem close item) := by
  intro input items done left h _
  obtain ⟨he, rfl, rfl⟩ | ⟨value, rest, mark, hv, hm, rfl, hd⟩ := bracketItem_cases h
  · obtain ⟨skipped, rfl, hk⟩ := exists_taken_of_skipVoid he hc
    refine ⟨skipped ++ [close], by simp, (fun he => nomatch he), fun other ha => ?_⟩
    rw [List.append_assoc, List.singleton_append]
    exact bracketItem_close item (hk other)
  · have hmr : mark ≠ '\r' := by
      obtain ⟨rfl, -⟩ | ⟨-, rfl, -⟩ := hd
      · decide
      · exact hc
    obtain ⟨skipped, rfl, hk⟩ := exists_taken_of_skipVoid hm hmr
    obtain ⟨taken, rfl, hr⟩ := hl.skipVoid hs hv
    refine ⟨taken ++ (skipped ++ [mark]), by simp, fun _ => by simp, fun other ha => ?_⟩
    have hal := (ha.cons mark).append skipped
    rw [List.append_assoc, List.append_assoc, List.singleton_append]
    exact bracketItem_item hn hs (hr hal) (hk other) hd

end

/-! ## Values -/

theorem starts_valueWith (inner : Option (Scan Value)) : Starts (valueWith inner) := by
  intro input h
  rw [valueWith.eq_def] at h
  split at h
  · exact ⟨'[', _, rfl, by decide⟩
  · exact ⟨'\x7b', _, rfl, by decide⟩
  · exact ⟨'"', _, rfl, by decide⟩
  · exact ⟨'\'', _, rfl, by decide⟩
  · exact starts_scalarScan h

theorem valueWith_word (inner : Option (Scan Value)) {c : Char} {rest : List Char} (hb : c ≠ '[')
    (hc : c ≠ '\x7b') (hq : c ≠ '"') (hs : c ≠ '\'') :
    valueWith inner (c :: rest) = scalarScan (c :: rest) := by
  rw [valueWith.eq_def]
  split
  · rename_i he
    exact absurd (List.cons.inj he).1 hb
  · rename_i he
    exact absurd (List.cons.inj he).1 hc
  · rename_i he
    exact absurd (List.cons.inj he).1 hq
  · rename_i he
    exact absurd (List.cons.inj he).1 hs
  · rfl

theorem local_valueWith {inner : Option (Scan Value)}
    (hi : ∀ item, inner = some item → Local item ∧ Starts item) : Local (valueWith inner) := by
  intro input value left h
  rw [valueWith.eq_def] at h
  split at h
  · split at h
    · cases h
    · rename_i rest item
      obtain ⟨hl, hs⟩ := hi item rfl
      have hr : LocalItem (arrayItem item) := by
        rw [arrayItem_eq]
        exact .bracketItem (by decide) (by decide) hl hs
      obtain ⟨taken, rfl, ho⟩ := hr.repeatScan.map (Value.array .literal) h
      exact ⟨'[' :: taken, rfl, ho⟩
  · split at h
    · cases h
    · rename_i rest item
      obtain ⟨hl, hs⟩ := hi item rfl
      have hr : LocalItem (inlineItem item) := by
        rw [inlineItem_eq]
        exact .bracketItem (by decide) (by decide) (hl.pairScan hs) (starts_pairScan skipVoid item)
      split at h
      · cases h
      · rename_i pairs after hp
        obtain ⟨entries, he, heq⟩ := Option.map_eq_some_iff.mp h
        cases heq
        obtain ⟨taken, rfl, ho⟩ := hr.repeatScan hp
        refine ⟨'\x7b' :: taken, rfl, fun other ha => ?_⟩
        rw [List.cons_append, valueWith, ho ha]
        simp only [he, Option.map_some]
  · obtain ⟨taken, he, ho⟩ := local_anyString.map Value.string h
    refine ⟨taken, he, fun other ha => ?_⟩
    obtain ⟨after, hq, -⟩ := (he ▸ (ha.append taken).symm).of_cons (by decide)
    rw [← ho ha, hq, valueWith]
  · obtain ⟨taken, he, ho⟩ := local_anyString.map Value.string h
    refine ⟨taken, he, fun other ha => ?_⟩
    obtain ⟨after, hq, -⟩ := (he ▸ (ha.append taken).symm).of_cons (by decide)
    rw [← ho ha, hq, valueWith]
  · rename_i hb hc hq hs
    obtain ⟨c, rest, rfl, hstart⟩ := starts_scalarScan (Option.isSome_of_eq_some h)
    obtain ⟨taken, he, ho⟩ := local_scalarScan h
    refine ⟨taken, he, fun other ha => ?_⟩
    obtain ⟨after, hw, -⟩ :=
      (he ▸ (ha.append taken).symm).of_cons (ne_of_passes hstart (by decide))
    rw [← ho ha, hw, valueWith_word inner (fun e => hb rest (congrArg (· :: rest) e))
      (fun e => hc rest (congrArg (· :: rest) e)) (fun e => hq rest (congrArg (· :: rest) e))
      (fun e => hs rest (congrArg (· :: rest) e))]

theorem exists_valueWith (depth : Nat) : ∃ inner, valueScan depth = valueWith inner := by
  cases depth with
  | zero => exact ⟨none, rfl⟩
  | succ depth => exact ⟨some (valueScan depth), rfl⟩

theorem starts_valueScan (depth : Nat) : Starts (valueScan depth) := by
  obtain ⟨inner, hi⟩ := exists_valueWith depth
  rw [hi]
  exact starts_valueWith inner

/-- What a value is does not depend on what follows it, up to the end of its line. -/
theorem local_valueScan (depth : Nat) : Local (valueScan depth) := by
  induction depth with
  | zero => exact local_valueWith fun item he => nomatch he
  | succ depth ih =>
    refine local_valueWith fun item he => ?_
    obtain rfl := Option.some.inj he
    exact ⟨ih, starts_valueScan depth⟩

/-! ## Depth -/

/-- A scan that reads at least what another one does. -/
def Extends {α : Type} (scan wider : Scan α) : Prop :=
  ∀ ⦃input found⦄, scan input = some found → wider input = some found

theorem Extends.repeatScan {α : Type} {scan wider : Scan (List α × Bool)} (h : Extends scan wider) :
    Extends (repeatScan scan) (repeatScan wider) := by
  have hu : ∀ count, Extends (repeatUpTo scan count) (repeatUpTo wider count) := by
    intro count
    induction count with
    | zero =>
      intro input found hs
      cases hs
    | succ count ih =>
      intro input found hs
      rw [repeatUpTo] at hs
      split at hs
      · cases hs
      · rename_i items rest hf
        rw [repeatUpTo, h hf]
        exact hs
      · rename_i items rest hf
        split at hs
        · cases hs
        · rename_i more left hm
          rw [repeatUpTo, h hf]
          simp only [ih hm]
          exact hs
  exact fun input found hs => hu _ hs

theorem Extends.bracketItem {α : Type} {close : Char} {item wider : Scan α}
    (h : Extends item wider) : Extends (bracketItem close item) (bracketItem close wider) := by
  intro input found hs
  rw [Toml.bracketItem] at hs ⊢
  split at hs
  · rename_i hh
    rw [if_pos hh]
    exact hs
  · rename_i hh
    rw [if_neg hh]
    split at hs
    · cases hs
    · rename_i value rest hv
      rw [h hv]
      exact hs

theorem Extends.pairScan {item wider : Scan Value} (h : Extends item wider)
    (skip : List Char → List Char) : Extends (pairScan skip item) (pairScan skip wider) := by
  intro input found hs
  rw [Toml.pairScan] at hs ⊢
  split at hs
  · cases hs
  · split at hs
    · obtain ⟨read, hr, he⟩ := Option.map_eq_some_iff.mp hs
      simp only [h hr, Option.map_some, he]
    · cases hs

theorem Extends.valueWith {inner wider : Option (Scan Value)}
    (h : ∀ item, inner = some item → ∃ more, wider = some more ∧ Extends item more) :
    Extends (valueWith inner) (valueWith wider) := by
  intro input found hs
  rw [Toml.valueWith.eq_def] at hs ⊢
  split at hs
  · split at hs
    · cases hs
    · rename_i item
      obtain ⟨more, rfl, he⟩ := h item rfl
      simp only [arrayItem_eq] at hs ⊢
      obtain ⟨read, hr, hf⟩ := Option.map_eq_some_iff.mp hs
      simp only [he.bracketItem.repeatScan hr, Option.map_some, hf]
  · split at hs
    · cases hs
    · rename_i item
      obtain ⟨more, rfl, he⟩ := h item rfl
      simp only [inlineItem_eq] at hs ⊢
      split at hs
      · cases hs
      · rename_i pairs rest hp
        simp only [(he.pairScan skipVoid).bracketItem.repeatScan hp]
        exact hs
  · exact hs
  · exact hs
  · exact hs

theorem valueScan_succ (depth : Nat) : Extends (valueScan depth) (valueScan (depth + 1)) := by
  induction depth with
  | zero => exact Extends.valueWith fun item he => nomatch he
  | succ depth ih =>
    refine Extends.valueWith fun item he => ?_
    obtain rfl := Option.some.inj he
    exact ⟨_, rfl, ih⟩

theorem valueScan_mono {depth bound : Nat} (h : depth ≤ bound) :
    Extends (valueScan depth) (valueScan bound) := by
  induction h with
  | refl => exact fun input found hs => hs
  | step _ ih => exact fun input found hs => valueScan_succ _ (ih hs)

/-! ## Texts of values -/

/-- A text that is a value and nothing more, however deep its brackets are nested. -/
def IsValue (text : List Char) : Prop := ∃ depth value, valueScan depth text = some (value, [])

theorem IsValue.exists_start {text : List Char} (h : IsValue text) :
    ∃ c rest, text = c :: rest ∧ isStart c = true := by
  obtain ⟨depth, value, hv⟩ := h
  exact starts_valueScan depth (Option.isSome_of_eq_some hv)

/-- At the end of a line a value is read as it is read alone, or not at all if it is too deep. -/
theorem IsValue.valueScan_line {text : List Char} (h : IsValue text) (bound : Nat)
    (rest : List Char) : valueScan bound (text ++ '\n' :: rest) =
      (valueScan bound text).map fun read => (read.1, '\n' :: rest) := by
  obtain ⟨depth, value, hv⟩ := h
  -- Every depth reads what the greatest of them reads.
  have hmax := valueScan_mono (Nat.le_max_left depth bound) hv
  have hline : ∀ {input found}, valueScan bound input = some found →
      valueScan (max depth bound) input = some found :=
    fun hs => valueScan_mono (Nat.le_max_right depth bound) hs
  have halike : Alike [] ('\n' :: rest) := .ended .nil (.line rest)
  cases hb : valueScan bound text with
  | some read =>
    obtain ⟨found, left⟩ := read
    cases (hline hb).symm.trans hmax
    obtain ⟨taken, ht, hr⟩ := local_valueScan bound hb
    rw [List.append_nil] at ht
    rw [ht, hr halike, Option.map_some]
  | none =>
    cases hs : valueScan bound (text ++ '\n' :: rest) with
    | none => rfl
    | some read =>
      obtain ⟨found, left⟩ := read
      obtain ⟨taken, ht, hr⟩ := local_valueScan _ hmax
      rw [List.append_nil] at ht
      rw [ht] at hs hb
      cases (hline hs).symm.trans (hr halike)
      obtain ⟨others, ho, hn⟩ := local_valueScan bound hs
      obtain rfl := List.append_cancel_right ho
      rw [← List.append_nil taken, hn halike.symm] at hb
      cases hb

end HandlerRegistry.Toml
