import HandlerRegistry.Proofs.Toml.Table
import HandlerRegistry.Proofs.Toml.Value
import HandlerRegistry.Proofs.Traversal

/-! # Documents of single lines

A document of lines with a bare key and a value each, all keys different, is read line by line: its
entries are the values under their keys in the order of the lines, and it is no document if one of the
values is none (`readDocument_document`). -/

namespace HandlerRegistry.Toml
set_option autoImplicit false

/-- A line that gives a value to a key. -/
structure Line where
  key : String
  value : List Char

/-- A key that is written without quotes. -/
def IsBareKey (key : String) : Prop :=
  key.toList ≠ [] ∧ key.toList.all isBareKeyChar = true

theorem isBlank_of_isStart {c : Char} (h : isStart c = true) : isBlank c = false := by
  rw [isBlank, Bool.or_eq_false_iff, beq_eq_false_iff_ne, beq_eq_false_iff_ne]
  exact ⟨ne_of_passes h (by decide), ne_of_passes h (by decide)⟩

theorem skipBlank_of_isStart {c : Char} (h : isStart c = true) (rest : List Char) :
    skipBlank (c :: rest) = c :: rest :=
  List.dropWhile_cons_of_neg (Bool.eq_false_iff.mp (isBlank_of_isStart h))

theorem lineEnd_of_isStart {c : Char} (h : isStart c = true) (rest : List Char) :
    lineEnd (c :: rest) = none := by
  rw [lineEnd, skipBlank_of_isStart h]
  split
  · rename_i he
    exact absurd (List.cons.inj he).1 (ne_of_passes h (by decide))
  · rw [newline?.eq_def]
    split
    · rename_i he
      cases he
    · rename_i he
      exact absurd (List.cons.inj he).1 (ne_of_passes h (by decide))
    · rename_i he
      exact absurd (List.cons.inj he).1 (ne_of_passes h (by decide))
    · rfl

namespace Line

def chars (line : Line) : List Char :=
  line.key.toList ++ [' ', '=', ' '] ++ line.value ++ ['\n']

/-- The document of some lines. -/
def document (lines : List Line) : String := String.ofList (lines.flatMap chars)

/-- A line that can be read by itself. -/
structure WellFormed (line : Line) : Prop where
  key : IsBareKey line.key
  value : IsValue line.value

/-- The entry that a line makes. -/
def pair? (line : Line) : Option (String × Value) :=
  (valueScan maxDepth line.value).map fun read => (line.key, read.1)

/-! ## One line -/

section
variable {line : Line}

theorem chars_append (line : Line) (rest : List Char) :
    line.chars ++ rest =
      line.key.toList ++ ' ' :: '=' :: ' ' :: (line.value ++ '\n' :: rest) := by
  simp only [chars, List.append_assoc, List.cons_append, List.nil_append]

theorem WellFormed.exists_start (h : line.WellFormed) (rest : List Char) :
    ∃ c after, line.chars ++ rest = c :: after ∧ isBareKeyChar c = true := by
  obtain ⟨hne, hb⟩ := h.key
  obtain ⟨c, bare, he⟩ := List.exists_cons_of_ne_nil hne
  rw [he, List.all_cons, Bool.and_eq_true] at hb
  rw [chars_append, he]
  exact ⟨c, _, rfl, hb.1⟩

theorem WellFormed.keyScan (h : line.WellFormed) (rest : List Char) :
    keyScan (line.chars ++ rest) =
      some (([], line.key), ' ' :: '=' :: ' ' :: (line.value ++ '\n' :: rest)) := by
  obtain ⟨hne, hb⟩ := h.key
  have hp : keyPart (line.key.toList ++ ' ' :: '=' :: ' ' :: (line.value ++ '\n' :: rest)) =
      some (String.ofList line.key.toList, ' ' :: '=' :: ' ' :: (line.value ++ '\n' :: rest)) := by
    refine keyPart_bare hne (List.all_eq_true.mp hb) fun c hc => ?_
    cases hc
    decide
  have ht : repeatScan keyTail (' ' :: '=' :: ' ' :: (line.value ++ '\n' :: rest)) =
      some ([], ' ' :: '=' :: ' ' :: (line.value ++ '\n' :: rest)) := Runs.repeatScan (.last rfl)
  rw [chars_append, Toml.keyScan, hp, String.ofList_toList]
  simp only [ht]
  rfl

theorem WellFormed.statementScan (h : line.WellFormed) (rest : List Char) :
    statementScan (line.chars ++ rest) =
      line.pair?.map fun entry => (.pair ([], entry.1) entry.2, '\n' :: rest) := by
  obtain ⟨c, after, hc, hb⟩ := h.exists_start rest
  obtain ⟨d, value, hv, hd⟩ := h.value.exists_start
  have hblank : skipBlank (' ' :: (line.value ++ '\n' :: rest)) = line.value ++ '\n' :: rest := by
    rw [hv]
    exact skipBlank_of_isStart hd _
  have hopen : Toml.statementScan (line.chars ++ rest) =
      (pairScan skipBlank (valueScan maxDepth) (line.chars ++ rest)).map fun read =>
        (.pair read.1.1 read.1.2, read.2) := by
    rw [hc, Toml.statementScan.eq_3]
    · exact fun left he => ne_of_passes hb (by decide) (List.cons.inj he).1
    · exact fun left he => ne_of_passes hb (by decide) (List.cons.inj he).1
  rw [hopen, pairScan, h.keyScan rest]
  have hs : skipBlank (' ' :: '=' :: ' ' :: (line.value ++ '\n' :: rest)) =
    '=' :: ' ' :: (line.value ++ '\n' :: rest) := rfl
  simp only [hs, hblank, h.value.valueScan_line, pair?, Option.map_map]
  rfl

theorem WellFormed.lineScan (h : line.WellFormed) (rest : List Char) :
    lineScan (line.chars ++ rest) = line.pair?.map fun entry =>
      (([.pair ([], entry.1) entry.2], false), rest) := by
  obtain ⟨c, after, hc, hb⟩ := h.exists_start rest
  have hstart : isStart c = true := isStart_of_isBareKeyChar hb
  have hs : skipBlank (line.chars ++ rest) = line.chars ++ rest := by
    rw [hc]
    exact skipBlank_of_isStart hstart after
  have hend : lineEnd (line.chars ++ rest) = none := by
    rw [hc]
    exact lineEnd_of_isStart hstart after
  have hne : line.chars ++ rest ≠ [] := by
    rw [hc]
    exact List.cons_ne_nil _ _
  rw [Toml.lineScan, if_neg hne, hend]
  simp only [hs, h.statementScan rest]
  cases line.pair? with
  | none => rfl
  | some entry => rfl

end

/-! ## All lines -/

theorem repeatUpTo_lineScan {lines : List Line} (h : ∀ line ∈ lines, line.WellFormed) {count : Nat}
    (hc : lines.length < count) : repeatUpTo lineScan count (lines.flatMap chars) =
      (lines.mapM pair?).map fun entries =>
        (entries.map fun entry => .pair ([], entry.1) entry.2, []) := by
  induction lines generalizing count with
  | nil =>
    obtain ⟨count, rfl⟩ : ∃ n, count = n + 1 := ⟨count - 1, by omega⟩
    rfl
  | cons line lines ih =>
    obtain ⟨hl, hr⟩ := List.forall_mem_cons.mp h
    obtain ⟨count, rfl⟩ : ∃ n, count = n + 1 := ⟨count - 1, by omega⟩
    rw [List.length_cons] at hc
    rw [List.flatMap_cons, repeatUpTo, hl.lineScan, List.mapM_cons]
    cases line.pair? with
    | none => rfl
    | some entry =>
      simp only [Option.map_some, ih hr (Nat.lt_of_succ_lt_succ hc)]
      cases lines.mapM pair? with
      | none => rfl
      | some entries => rfl

theorem length_le_length_flatMap_chars (lines : List Line) :
    lines.length ≤ (lines.flatMap chars).length := by
  induction lines with
  | nil => exact Nat.le_refl _
  | cons line lines ih =>
    have hl : 1 ≤ line.chars.length := by
      rw [chars, List.length_append, List.length_singleton]
      omega
    rw [List.flatMap_cons, List.length_append, List.length_cons]
    omega

theorem changeKey_of_not_mem {key : String} {change : Option Value → Option Value}
    {entries : Entries} (h : key ∉ entries.map Prod.fst) :
    changeKey key change entries =
      (change none).map fun value => entries ++ [(key, value)] := by
  induction entries with
  | nil => rfl
  | cons entry rest ih =>
    rw [List.map_cons, List.mem_cons, not_or] at h
    rw [changeKey, if_neg fun he => h.1 he.symm, ih h.2, Option.map_map]
    rfl

theorem add_pair {root : Entries} {key : String} (h : key ∉ root.map Prod.fst) (value : Value) :
    (Reading.mk [] root).add (.pair ([], key) value) = some ⟨[], root ++ [(key, value)]⟩ := by
  have hf : ¬ (TableForm.header = .dotted) = (([] : List String) = []) := by simp
  rw [Reading.add, changeAt, addPair, changeAt, if_neg hf, addNew, changeKey_of_not_mem h]
  rfl

theorem addAll_pairs {entries root : Entries} (h : Distinct (root ++ entries)) :
    (Reading.mk [] root).addAll (entries.map fun entry => .pair ([], entry.1) entry.2) =
      some ⟨[], root ++ entries⟩ := by
  induction entries generalizing root with
  | nil => rw [List.append_nil]; rfl
  | cons entry entries ih =>
    obtain ⟨key, value⟩ := entry
    have hn : key ∉ root.map Prod.fst := by
      intro hm
      rw [Distinct, List.map_append, List.map_cons] at h
      exact List.disjoint_of_nodup_append h hm List.mem_cons_self
    rw [List.append_cons] at h
    rw [List.map_cons, Reading.addAll, add_pair hn, Option.bind_some, ih h, ← List.append_cons]

theorem pair?_eq_some_iff {line : Line} {key : String} {value : Value} :
    line.pair? = some (key, value) ↔
      key = line.key ∧ ∃ left, valueScan maxDepth line.value = some (value, left) := by
  rw [pair?, Option.map_eq_some_iff]
  constructor
  · rintro ⟨⟨found, left⟩, hv, he⟩
    cases he
    exact ⟨rfl, left, hv⟩
  · rintro ⟨rfl, left, hv⟩
    exact ⟨_, hv, rfl⟩

theorem map_fst_of_mapM_pair? {lines : List Line} {entries : Entries}
    (h : lines.mapM pair? = some entries) : entries.map Prod.fst = lines.map key := by
  rw [mapM_eq_some_iff] at h
  induction lines generalizing entries with
  | nil =>
    obtain rfl := List.map_eq_nil_iff.mp h.symm
    rfl
  | cons line lines ih =>
    cases entries with
    | nil => cases h
    | cons entry entries =>
      obtain ⟨he, hr⟩ := List.cons.inj h
      rw [List.map_cons, List.map_cons, (pair?_eq_some_iff.mp he).1, ih hr]

theorem skipMark_of_start {lines : List Line} (h : ∀ line ∈ lines, line.WellFormed) :
    skipMark (lines.flatMap chars) = lines.flatMap chars := by
  cases lines with
  | nil => rfl
  | cons line lines =>
    obtain ⟨c, after, hc, hb⟩ := (h line List.mem_cons_self).exists_start (lines.flatMap chars)
    rw [List.flatMap_cons, hc, skipMark.eq_2]
    exact fun rest he => ne_of_passes hb (by decide) (List.cons.inj he).1

/-- A document of lines with different keys is read line by line. -/
theorem readDocument_document {lines : List Line} (h : ∀ line ∈ lines, line.WellFormed)
    (distinct : (lines.map key).Nodup) : readDocument (document lines) = lines.mapM pair? := by
  rw [readDocument, document, String.toList_ofList, skipMark_of_start h, repeatScan,
    repeatUpTo_lineScan h (Nat.lt_succ_of_le (length_le_length_flatMap_chars lines))]
  cases hm : lines.mapM pair? with
  | none => rfl
  | some entries =>
    have hd : Distinct ([] ++ entries) := by
      rw [List.nil_append, Distinct, map_fst_of_mapM_pair? hm]
      exact distinct
    simp only [Option.map_some, addAll_pairs hd]
    rfl

end Line
end HandlerRegistry.Toml
