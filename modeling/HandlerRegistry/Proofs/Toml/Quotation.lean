import HandlerRegistry.Proofs.Toml.Scanning
import HandlerRegistry.Toml.Quotation

/-! # The scans of strings and keys are local

Every sort of string ends with its own quotes, and a key before the first character that it cannot
hold. What a string of several lines leaves out after a hidden line end needs care: the blanks that
are skipped there might go on behind the text. They do not, because the string goes on, too, and what
comes next in it stops the skipping (`exists_taken_of_skipLines`). -/

namespace HandlerRegistry.Toml
set_option autoImplicit false

/-! ## Escapes -/

theorem local_hexDigits (value count : Nat) : Local (hexDigits value count) := by
  induction count generalizing value with
  | zero =>
    intro input read left h
    cases h
    exact ⟨[], rfl, fun other _ => rfl⟩
  | succ count ih =>
    intro input read left h
    cases input with
    | nil => cases h
    | cons c rest =>
      rw [hexDigits] at h
      split at h
      · rename_i digit hd
        obtain ⟨taken, rfl, hr⟩ := ih _ h
        refine ⟨c :: taken, rfl, fun other ha => ?_⟩
        rw [List.cons_append, hexDigits, hd]
        exact hr ha
      · cases h

theorem local_codePoint (count : Nat) : Local (codePoint count) := by
  intro input read left h
  rw [codePoint] at h
  split at h
  · rename_i value rest hd
    split at h
    · rename_i hv
      cases h
      obtain ⟨taken, rfl, hr⟩ := local_hexDigits 0 count hd
      refine ⟨taken, rfl, fun other ha => ?_⟩
      rw [codePoint, hr ha]
      exact if_pos hv
    · cases h
  · cases h

theorem local_escapeScan : Local escapeScan := by
  intro input read left h
  rw [escapeScan.eq_def] at h
  split at h
  case h_9 rest =>
    obtain ⟨taken, rfl, hr⟩ := local_codePoint 2 h
    exact ⟨'x' :: taken, rfl, hr⟩
  case h_10 rest =>
    obtain ⟨taken, rfl, hr⟩ := local_codePoint 4 h
    exact ⟨'u' :: taken, rfl, hr⟩
  case h_11 rest =>
    obtain ⟨taken, rfl, hr⟩ := local_codePoint 8 h
    exact ⟨'U' :: taken, rfl, hr⟩
  case h_12 => cases h
  all_goals
    cases h
    exact ⟨[_], rfl, fun other _ => rfl⟩

/-! ## Strings on one line -/

theorem localItem_basicItem : LocalItem basicItem := by
  intro input items done left h _
  rw [basicItem.eq_def] at h
  split at h
  · cases h
  · cases h
    exact ⟨['"'], rfl, (fun he => nomatch he), fun other _ => rfl⟩
  · rename_i rest
    obtain ⟨⟨c, after⟩, hs, he⟩ := Option.map_eq_some_iff.mp h
    cases he
    obtain ⟨taken, rfl, hr⟩ := local_escapeScan hs
    refine ⟨'\\' :: taken, rfl, fun _ => List.cons_ne_nil _ _, fun other ha => ?_⟩
    rw [List.cons_append, basicItem, hr ha]
    rfl
  · rename_i c rest hq hb
    split at h
    · rename_i hp
      cases h
      refine ⟨[c], rfl, fun _ => List.cons_ne_nil _ _, fun other _ => ?_⟩
      rw [List.singleton_append, basicItem.eq_4 _ _ hq hb, if_pos hp]
    · cases h

theorem localItem_literalItem : LocalItem literalItem := by
  intro input items done left h _
  rw [literalItem.eq_def] at h
  split at h
  · cases h
  · cases h
    exact ⟨['\''], rfl, (fun he => nomatch he), fun other _ => rfl⟩
  · rename_i c rest hq
    split at h
    · rename_i hp
      cases h
      refine ⟨[c], rfl, fun _ => List.cons_ne_nil _ _, fun other _ => ?_⟩
      rw [List.singleton_append, literalItem.eq_3 _ _ hq, if_pos hp]
    · cases h

theorem local_basicString : Local basicString := localItem_basicItem.repeatScan.map String.ofList

theorem local_literalString : Local literalString :=
  localItem_literalItem.repeatScan.map String.ofList

/-! ## Strings that span lines -/

section
variable {quote : Char} {input quotes left other : List Char}

theorem closing?_three (h : left.head? ≠ some quote) :
    closing? quote (quote :: quote :: quote :: left) = some ([], left) := by
  have hd : ∀ d after, left = d :: after → d ≠ quote := by
    rintro d after rfl rfl
    exact h rfl
  match left with
  | [] => simp [closing?]
  | [d] => simp [closing?, hd d [] rfl]
  | d :: e :: after => simp [closing?, hd d _ rfl]

theorem closing?_four (h : left.head? ≠ some quote) :
    closing? quote (quote :: quote :: quote :: quote :: left) = some ([quote], left) := by
  match left with
  | [] => simp [closing?]
  | d :: after =>
    have hd : d ≠ quote := fun e => h (congrArg some e)
    simp [closing?, hd]

theorem closing?_five (quote : Char) (left : List Char) :
    closing? quote (quote :: quote :: quote :: quote :: quote :: left) =
      some ([quote, quote], left) := by
  simp [closing?]

theorem closing?_isSome_iff :
    (closing? quote input).isSome ↔ ∃ rest, input = quote :: quote :: quote :: rest := by
  constructor
  · intro h
    rw [closing?.eq_def] at h
    split at h
    · split at h
      · rename_i hq
        obtain ⟨rfl, rfl, rfl⟩ := hq
        exact ⟨_, rfl⟩
      · cases h
    · cases h
  · rintro ⟨rest, rfl⟩
    by_cases h3 : rest.head? = some quote
    · obtain ⟨after, rfl⟩ := List.head?_eq_some_iff.mp h3
      by_cases h4 : after.head? = some quote
      · obtain ⟨last, rfl⟩ := List.head?_eq_some_iff.mp h4
        rw [closing?_five, Option.isSome_some]
      · rw [closing?_four h4, Option.isSome_some]
    · rw [closing?_three h3, Option.isSome_some]

/-- Three quotes close a string, or four or five if there are as many. -/
theorem local_closing? (hq : quote ≠ '\n') : Local (closing? quote) := by
  intro input quotes left h
  obtain ⟨rest, rfl⟩ := closing?_isSome_iff.mp (Option.isSome_of_eq_some h)
  by_cases h3 : rest.head? = some quote
  · obtain ⟨after, rfl⟩ := List.head?_eq_some_iff.mp h3
    by_cases h4 : after.head? = some quote
    · obtain ⟨last, rfl⟩ := List.head?_eq_some_iff.mp h4
      rw [closing?_five] at h
      cases h
      exact ⟨[quote, quote, quote, quote, quote], rfl, fun other _ => closing?_five quote other⟩
    · rw [closing?_four h4] at h
      cases h
      exact ⟨[quote, quote, quote, quote], rfl, fun other ha => closing?_four (ha.head?_ne hq h4)⟩
  · rw [closing?_three h3] at h
    cases h
    exact ⟨[quote, quote, quote], rfl, fun other ha => closing?_three (ha.head?_ne hq h3)⟩

theorem closing?_eq_none_of_alike (hq : quote ≠ '\n') (ha : Alike left other)
    (h : closing? quote left = none) : closing? quote other = none := by
  rw [← Option.not_isSome_iff_eq_none, closing?_isSome_iff] at h ⊢
  rintro ⟨rest, rfl⟩
  obtain ⟨first, rfl, h1⟩ := ha.of_cons hq
  obtain ⟨second, rfl, h2⟩ := h1.of_cons hq
  obtain ⟨third, rfl, -⟩ := h2.of_cons hq
  exact h ⟨third, rfl⟩

end

/-! ### What a hidden line end takes with it -/

/-- Whether a character ends the blanks and line ends after a hidden line end. -/
def StopsLines (c : Char) : Prop := isBlank c = false ∧ c ≠ '\n' ∧ c ≠ '\r'

theorem skipLines_of_stops {c : Char} (h : StopsLines c) (rest : List Char) :
    skipLines (c :: rest) = c :: rest := by
  obtain ⟨hb, hn, hr⟩ := h
  rw [skipLines]
  · simp [hb, hn]
  · rintro tail rfl
    exact absurd rfl hr

theorem exists_skipLines (input : List Char) : ∃ skipped, input = skipped ++ skipLines input ∧
    ∀ c rest, StopsLines c → skipLines (skipped ++ c :: rest) = c :: rest := by
  induction input using skipLines.induct with
  | case1 rest ih =>
    obtain ⟨skipped, he, hs⟩ := ih
    exact ⟨'\r' :: '\n' :: skipped, by rw [skipLines]; exact congrArg _ (congrArg _ he), hs⟩
  | case2 c rest hne hc ih =>
    obtain ⟨skipped, he, hs⟩ := ih
    have hstep : ∀ rest, skipLines (c :: rest) = skipLines rest := by
      intro rest
      rw [skipLines]
      · exact if_pos hc
      · rintro tail rfl
        exact absurd hc (by decide)
    refine ⟨c :: skipped, by rw [hstep]; exact congrArg _ he, fun d rest hd => ?_⟩
    rw [List.cons_append, hstep, hs d rest hd]
  | case3 c rest hne hc =>
    refine ⟨[], ?_, fun d rest hd => skipLines_of_stops hd rest⟩
    rw [skipLines]
    · simp [hc]
    · exact hne
  | case4 => exact ⟨[], rfl, fun d rest hd => skipLines_of_stops hd rest⟩

theorem skipLines_head {input left : List Char} {c : Char} (h : skipLines input = c :: left) :
    isBlank c = false ∧ c ≠ '\n' ∧ (c = '\r' → left.head? ≠ some '\n') := by
  induction input using skipLines.induct with
  | case1 rest ih =>
    rw [skipLines] at h
    exact ih h
  | case2 d rest hne hd ih =>
    rw [skipLines.eq_2 _ _ hne, if_pos hd] at h
    exact ih h
  | case3 d rest hne hd =>
    rw [skipLines.eq_2 _ _ hne, if_neg hd] at h
    obtain ⟨rfl, rfl⟩ := List.cons.inj h
    rw [Bool.or_eq_true, not_or, Bool.not_eq_true, beq_iff_eq] at hd
    refine ⟨hd.1, hd.2, fun he hn => ?_⟩
    obtain ⟨after, ha⟩ := List.head?_eq_some_iff.mp hn
    exact hne after he ha
  | case4 => cases h

/-! ### Escapes and characters -/

section
variable {input items left : List Char} {done : Bool}

theorem exists_taken_of_blockChar (h : blockChar input = some ((items, done), left)) :
    done = false ∧ ∃ taken, input = taken ++ left ∧ taken ≠ [] ∧
      ∀ other, blockChar (taken ++ other) = some ((items, done), other) := by
  rw [blockChar.eq_def] at h
  split at h
  · cases h
    exact ⟨rfl, ['\r', '\n'], rfl, List.cons_ne_nil _ _, fun other => rfl⟩
  · rename_i c rest hne
    split at h
    · rename_i hc
      cases h
      have hr : c ≠ '\r' := by
        rintro rfl
        exact absurd hc (by decide)
      refine ⟨rfl, [c], rfl, List.cons_ne_nil _ _, fun other => ?_⟩
      rw [List.singleton_append, blockChar.eq_2 _ _ fun after he _ => hr he, if_pos hc]
    · cases h
  · cases h

theorem blockEscape_of_escapeScan {c : Char} (h : escapeScan input = some (c, left)) :
    blockEscape input = some (([c], false), left) := by
  obtain ⟨letter, rest, rfl, hb, hn, hr⟩ : ∃ letter rest, input = letter :: rest ∧
      isBlank letter = false ∧ letter ≠ '\n' ∧ letter ≠ '\r' := by
    rw [escapeScan.eq_def] at h
    split at h
    case h_12 => cases h
    all_goals exact ⟨_, _, rfl, by decide, by decide, by decide⟩
  have hs : skipBlank (letter :: rest) = letter :: rest :=
    List.dropWhile_cons_of_neg (Bool.eq_false_iff.mp hb)
  rw [blockEscape, hs]
  split
  · rename_i he
    exact absurd (List.cons.inj he).1 hn
  · rename_i he
    exact absurd (List.cons.inj he).1 hr
  · rw [h, Option.map_some]

/-- Whether a text begins with something that can be read in a string that spans lines. -/
def Begins (input : List Char) : Prop :=
  ∃ c rest, input = c :: rest ∧ (c = '\r' → rest.head? = some '\n')

theorem exists_taken_of_skipLines (hn : Begins (skipLines input)) :
    ∃ skipped, input = skipped ++ skipLines input ∧
      ∀ ⦃other⦄, Alike (skipLines input) other → skipLines (skipped ++ other) = other := by
  obtain ⟨c, rest, hc, hr⟩ := hn
  obtain ⟨hcb, hcn, hcr⟩ := skipLines_head hc
  obtain ⟨skipped, hs, hrest⟩ := exists_skipLines input
  refine ⟨skipped, hs, fun other ha => ?_⟩
  rw [hc] at ha
  obtain ⟨others, rfl, -⟩ := ha.symm.of_cons hcn
  exact hrest c others ⟨hcb, hcn, fun he => hcr he (hr he)⟩

theorem done_of_blockEscape (h : blockEscape input = some ((items, done), left)) :
    done = false := by
  rw [blockEscape] at h
  split at h
  · cases h
    rfl
  · cases h
    rfl
  · obtain ⟨read, -, he⟩ := Option.map_eq_some_iff.mp h
    cases he
    rfl

theorem exists_taken_of_blockEscape (h : blockEscape input = some ((items, done), left))
    (hn : Begins left) : ∃ taken, input = taken ++ left ∧
      ∀ ⦃other⦄, Alike left other → blockEscape (taken ++ other) = some ((items, done), other) := by
  obtain ⟨blanks, hi, hb⟩ := exists_blanks input
  rw [blockEscape] at h
  split at h
  · rename_i rest hs
    cases h
    obtain ⟨skipped, he, hr⟩ := exists_taken_of_skipLines hn
    refine ⟨blanks ++ '\n' :: skipped, ?_, fun other ha => ?_⟩
    · rw [List.append_assoc, List.cons_append, ← he, ← hs]
      exact hi
    · rw [List.append_assoc, List.cons_append, blockEscape, hb (hs ▸ .ended (.line _) (.line _))]
      simp only [hr ha]
  · rename_i rest hs
    cases h
    obtain ⟨skipped, he, hr⟩ := exists_taken_of_skipLines hn
    refine ⟨blanks ++ '\r' :: '\n' :: skipped, ?_, fun other ha => ?_⟩
    · rw [List.append_assoc, List.cons_append, List.cons_append, ← he, ← hs]
      exact hi
    · rw [List.append_assoc, List.cons_append, List.cons_append, blockEscape,
        hb (hs ▸ .cons _ (.ended (.line _) (.line _)))]
      simp only [hr ha]
  · obtain ⟨⟨c, after⟩, hs, he⟩ := Option.map_eq_some_iff.mp h
    cases he
    obtain ⟨taken, rfl, hr⟩ := local_escapeScan hs
    exact ⟨taken, rfl, fun other ha => blockEscape_of_escapeScan (hr ha)⟩

/-! ### Items -/

theorem begins_of_blockChar {read : List Char × Bool} (h : blockChar input = some (read, left)) :
    Begins input := by
  rw [blockChar.eq_def] at h
  split at h
  · exact ⟨'\r', _, rfl, fun _ => rfl⟩
  · rename_i c rest hne
    split at h
    · rename_i hc
      refine ⟨c, rest, rfl, ?_⟩
      rintro rfl
      exact absurd hc (by decide)
    · cases h
  · cases h

theorem begins_of_closing? {quote : Char} (hq : quote ≠ '\r')
    (h : (closing? quote input).isSome) : Begins input := by
  obtain ⟨rest, rfl⟩ := closing?_isSome_iff.mp h
  exact ⟨quote, _, rfl, fun he => absurd he hq⟩

theorem closing?_cons_of_ne {quote c : Char} (hc : c ≠ quote) (rest : List Char) :
    closing? quote (c :: rest) = none := by
  rw [← Option.not_isSome_iff_eq_none, closing?_isSome_iff]
  rintro ⟨after, he⟩
  exact hc (List.cons.inj he).1

/-- What an item of a basic string that spans lines is. -/
theorem basicBlockItem_cases (h : basicBlockItem input = some ((items, done), left)) :
    (closing? '"' input = some (items, left) ∧ done = true) ∨
      (∃ rest, input = '\\' :: rest ∧ blockEscape rest = some ((items, done), left)) ∨
      (closing? '"' input = none ∧ input.head? ≠ some '\\' ∧
        blockChar input = some ((items, done), left)) := by
  rw [basicBlockItem.eq_def] at h
  split at h
  · rename_i quotes rest hc
    cases h
    exact .inl ⟨hc, rfl⟩
  · rename_i hc
    split at h
    · exact .inr (.inl ⟨_, rfl, h⟩)
    · rename_i hb
      refine .inr (.inr ⟨hc, fun hh => ?_, h⟩)
      obtain ⟨rest, he⟩ := List.head?_eq_some_iff.mp hh
      exact hb rest he

theorem basicBlockItem_of_closing? {quotes : List Char}
    (h : closing? '"' input = some (quotes, left)) :
    basicBlockItem input = some ((quotes, true), left) := by
  rw [basicBlockItem.eq_def, h]

theorem basicBlockItem_backslash (rest : List Char) :
    basicBlockItem ('\\' :: rest) = blockEscape rest := by
  rw [basicBlockItem.eq_def, closing?_cons_of_ne (by decide)]
  rfl

theorem basicBlockItem_of_blockChar {read : List Char × Bool} (hc : closing? '"' input = none)
    (hb : input.head? ≠ some '\\') (h : blockChar input = some (read, left)) :
    basicBlockItem input = some (read, left) := by
  rw [basicBlockItem.eq_def, hc]
  simp only
  split
  · exact absurd rfl hb
  · exact h

theorem begins_of_basicBlockItem (h : (basicBlockItem input).isSome) : Begins input := by
  obtain ⟨⟨⟨items, done⟩, left⟩, h⟩ := Option.isSome_iff_exists.mp h
  obtain ⟨hc, -⟩ | ⟨rest, rfl, -⟩ | ⟨-, -, hb⟩ := basicBlockItem_cases h
  · exact begins_of_closing? (by decide) (Option.isSome_of_eq_some hc)
  · exact ⟨'\\', rest, rfl, fun he => absurd he (by decide)⟩
  · exact begins_of_blockChar hb

theorem localItem_basicBlockItem : LocalItem basicBlockItem := by
  intro input items done left h next
  obtain ⟨hc, rfl⟩ | ⟨rest, rfl, he⟩ | ⟨hc, hb, he⟩ := basicBlockItem_cases h
  · obtain ⟨taken, rfl, hr⟩ := local_closing? (by decide) hc
    exact ⟨taken, rfl, (fun he => nomatch he), fun other ha => basicBlockItem_of_closing? (hr ha)⟩
  · have hn := begins_of_basicBlockItem (next (done_of_blockEscape he))
    obtain ⟨taken, rfl, hr⟩ := exists_taken_of_blockEscape he hn
    refine ⟨'\\' :: taken, rfl, fun _ => List.cons_ne_nil _ _, fun other ha => ?_⟩
    rw [List.cons_append, basicBlockItem_backslash, hr ha]
  · obtain ⟨-, taken, rfl, ht, hr⟩ := exists_taken_of_blockChar he
    refine ⟨taken, rfl, fun _ => ht, fun other ha => ?_⟩
    refine basicBlockItem_of_blockChar ?_ ?_ (hr other)
    · exact closing?_eq_none_of_alike (by decide) (ha.append taken) hc
    · obtain ⟨c, after, rfl⟩ := List.exists_cons_of_ne_nil ht
      exact hb

theorem localItem_literalBlockItem : LocalItem literalBlockItem := by
  intro input items done left h _
  rw [literalBlockItem] at h
  split at h
  · rename_i quotes rest hc
    cases h
    obtain ⟨taken, rfl, hr⟩ := local_closing? (by decide) hc
    refine ⟨taken, rfl, (fun he => nomatch he), fun other ha => ?_⟩
    rw [literalBlockItem, hr ha]
  · rename_i hc
    obtain ⟨-, taken, rfl, ht, hr⟩ := exists_taken_of_blockChar h
    refine ⟨taken, rfl, fun _ => ht, fun other ha => ?_⟩
    rw [literalBlockItem, closing?_eq_none_of_alike (by decide) (ha.append taken) hc]
    exact hr other

theorem begins_of_literalBlockItem (h : (literalBlockItem input).isSome) : Begins input := by
  obtain ⟨⟨⟨items, done⟩, left⟩, h⟩ := Option.isSome_iff_exists.mp h
  rw [literalBlockItem] at h
  split at h
  · rename_i hc
    exact begins_of_closing? (by decide) (Option.isSome_of_eq_some hc)
  · exact begins_of_blockChar h

/-! ### Whole strings -/

theorem skipFirstLine_cons {c : Char} (hn : c ≠ '\n') (hr : c ≠ '\r') (rest : List Char) :
    skipFirstLine (c :: rest) = c :: rest := by
  rw [skipFirstLine.eq_3]
  · rintro after he
    exact hn (List.cons.inj he).1
  · rintro after he
    exact hr (List.cons.inj he).1

/-- A line end at the very beginning is left out, and a string never begins with half of one. -/
theorem local_repeatScan_skipFirstLine {scan : Scan (List Char × Bool)} (hl : LocalItem scan)
    (hb : ∀ ⦃input⦄, (scan input).isSome → Begins input) :
    Local fun input => repeatScan scan (skipFirstLine input) := by
  intro input items left h
  have hs := (hl.runs_of_repeatUpTo h).isSome
  obtain ⟨taken, he, hr⟩ := hl.repeatScan h
  rw [skipFirstLine.eq_def] at he
  split at he
  · exact ⟨'\n' :: taken, congrArg _ he, hr⟩
  · exact ⟨'\r' :: '\n' :: taken, congrArg _ (congrArg _ he), hr⟩
  · rename_i hn hrn
    refine ⟨taken, he, fun other ha => ?_⟩
    rw [skipFirstLine.eq_3 _ hn hrn] at hs
    obtain ⟨c, rest, hc, hcr⟩ := hb hs
    have hcn : c ≠ '\n' := by
      rintro rfl
      exact hn rest hc
    have hcr : c ≠ '\r' := by
      rintro rfl
      obtain ⟨after, rfl⟩ := List.head?_eq_some_iff.mp (hcr rfl)
      exact hrn after hc
    have hal := (ha.append taken).symm
    rw [← he, hc] at hal
    obtain ⟨others, ho, -⟩ := hal.of_cons hcn
    show repeatScan scan (skipFirstLine (taken ++ other)) = _
    rw [ho, skipFirstLine_cons hcn hcr, ← ho]
    exact hr ha

theorem local_basicBlock : Local basicBlock :=
  (local_repeatScan_skipFirstLine localItem_basicBlockItem
    fun _ => begins_of_basicBlockItem).map String.ofList

theorem local_literalBlock : Local literalBlock :=
  (local_repeatScan_skipFirstLine localItem_literalBlockItem
    fun _ => begins_of_literalBlockItem).map String.ofList

end

/-! ## Strings of all sorts -/

theorem local_anyString : Local anyString := by
  intro input text left h
  rw [anyString.eq_def] at h
  split at h
  · obtain ⟨taken, rfl, hr⟩ := local_basicBlock h
    exact ⟨'"' :: '"' :: '"' :: taken, rfl, hr⟩
  · obtain ⟨taken, rfl, hr⟩ := local_literalBlock h
    exact ⟨'\'' :: '\'' :: '\'' :: taken, rfl, hr⟩
  · rename_i rest hb
    obtain ⟨taken, rfl, hr⟩ := local_basicString h
    refine ⟨'"' :: taken, rfl, fun other ha => ?_⟩
    rw [List.cons_append, anyString.eq_3]
    · exact hr ha
    · rintro after he
      obtain ⟨_, hd⟩ := (he ▸ ha.append taken).of_cons_cons (by decide) (by decide)
      exact hb _ hd
  · rename_i rest hb
    obtain ⟨taken, rfl, hr⟩ := local_literalString h
    refine ⟨'\'' :: taken, rfl, fun other ha => ?_⟩
    rw [List.cons_append, anyString.eq_4]
    · exact hr ha
    · rintro after he
      obtain ⟨_, hd⟩ := (he ▸ ha.append taken).of_cons_cons (by decide) (by decide)
      exact hb _ hd
  · cases h

/-! ## Keys -/

theorem keyPart_bare {bare rest : List Char} (hne : bare ≠ [])
    (hb : ∀ c ∈ bare, isBareKeyChar c = true)
    (hr : ∀ c, rest.head? = some c → isBareKeyChar c = false) :
    keyPart (bare ++ rest) = some (String.ofList bare, rest) := by
  obtain ⟨c, after, rfl⟩ := List.exists_cons_of_ne_nil hne
  have hc : isBareKeyChar c = true := hb c List.mem_cons_self
  obtain ⟨ht, hd⟩ := span_append hb hr
  rw [keyPart.eq_3, ht, hd]
  · exact fun left he => ne_of_passes hc (by decide) (List.cons.inj he).1
  · exact fun left he => ne_of_passes hc (by decide) (List.cons.inj he).1

theorem local_keyPart : Local keyPart := by
  intro input part left h
  rw [keyPart.eq_def] at h
  split at h
  · obtain ⟨taken, rfl, hr⟩ := local_basicString h
    exact ⟨'"' :: taken, rfl, hr⟩
  · obtain ⟨taken, rfl, hr⟩ := local_literalString h
    exact ⟨'\'' :: taken, rfl, hr⟩
  · rename_i hq hs
    obtain ⟨bare, rest, rfl, hb, hr⟩ := exists_span isBareKeyChar input
    obtain ⟨ht, hd⟩ := span_append hb hr
    rw [ht, hd] at h
    split at h
    · cases h
    · rename_i hne
      cases h
      exact ⟨bare, rfl, fun other ha =>
        keyPart_bare hne hb (ha.head_of_head (by decide) hr)⟩

theorem localItem_keyTail : LocalItem keyTail := by
  intro input parts done left h _
  rw [keyTail] at h
  split at h
  · rename_i rest hs
    obtain ⟨⟨part, after⟩, hp, he⟩ := Option.map_eq_some_iff.mp h
    cases he
    obtain ⟨taken, ht, hr⟩ := local_keyPart hp
    obtain ⟨blanks, hi, hb⟩ := exists_blanks input
    obtain ⟨inner, hn, hin⟩ := exists_blanks rest
    refine ⟨blanks ++ '.' :: (inner ++ taken), ?_,
      fun _ => List.append_ne_nil_of_right_ne_nil _ (List.cons_ne_nil _ _), fun other ha => ?_⟩
    · rw [List.append_assoc, List.cons_append, List.append_assoc, ← ht, ← hn, ← hs]
      exact hi
    · have hal := ha.append taken
      rw [← ht] at hal
      have hdot := (hal.append inner).cons '.'
      rw [← hn, ← hs] at hdot
      rw [List.append_assoc, List.cons_append, List.append_assoc, keyTail, hb hdot]
      simp only [hin hal, hr ha, Option.map_some]
  · rename_i hn
    cases h
    refine ⟨[], rfl, (fun he => nomatch he), fun other ha => ?_⟩
    rw [List.nil_append, keyTail]
    split
    · rename_i rest hs
      obtain ⟨_, hd, -⟩ := (hs ▸ ha.skipBlank).of_cons (by decide)
      exact absurd hd (hn _)
    · rfl

theorem local_keyScan : Local keyScan := by
  intro input key left h
  rw [keyScan] at h
  split at h
  · cases h
  · rename_i first rest hp
    split at h
    · cases h
    · rename_i more after hm
      split at h
      · cases h
      · rename_i hk
        cases h
        obtain ⟨taken, rfl, hr⟩ := local_keyPart hp
        obtain ⟨others, rfl, ho⟩ := localItem_keyTail.repeatScan hm
        refine ⟨taken ++ others, (List.append_assoc ..).symm, fun other ha => ?_⟩
        rw [List.append_assoc, keyScan, hr (ha.append others)]
        simp only [ho ha, if_neg hk]

end HandlerRegistry.Toml
