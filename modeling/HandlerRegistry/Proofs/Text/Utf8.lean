import HandlerRegistry.Proofs.Traversal
import HandlerRegistry.Text.Utf8.Lemmas

/-! # What a byte string spells

A byte string spells a text if and only if it is the encoding of that text (`decode?_eq_some_iff`):
no text has a second spelling. The order of texts by their bytes is a strict total order. -/

namespace HandlerRegistry.Utf8
set_option autoImplicit false

/-! ## Lead bytes and the bytes after them -/

/-- What a byte can begin: a character of one, two, three or four bytes, or none. -/
theorem begin_cases : ∀ b < 256, b < 128 ∨ begin (UInt8.ofNat b) = ([none], .idle) ∨
    (∃ n < 32, 2 ≤ n ∧ b = n + 0xC0) ∨ (∃ n < 16, b = n + 0xE0) ∨ (∃ n < 5, b = n + 0xF0) := by
  decide +kernel

theorem le_of_holds {range : Range} {b : Nat} (hb : b < 256)
    (h : range.holds (UInt8.ofNat b) = true) : range.low.toNat ≤ b ∧ b ≤ range.high.toNat := by
  simp only [Range.holds, Bool.and_eq_true, decide_eq_true_eq, UInt8.le_iff_toNat_le,
    UInt8.toNat_ofNat'] at h
  omega

theorem exists_of_continuation_holds {b : Nat} (hb : b < 256)
    (h : continuation.holds (UInt8.ofNat b) = true) : ∃ n < 64, b = n + 0x80 := by
  have hc : 0x80 ≤ b ∧ b ≤ 0xBF := le_of_holds hb h
  exact ⟨b - 0x80, by omega, by omega⟩

theorem exists_of_secondOfThree_holds {m b : Nat} (hb : b < 256)
    (h : (secondOfThree m).holds (UInt8.ofNat b) = true) :
    ∃ n < 64, b = n + 0x80 ∧ (m = 0 → 32 ≤ n) ∧ (m = 13 → n < 32) := by
  have hr := le_of_holds hb h
  rw [secondOfThree] at hr
  refine ⟨b - 0x80, ?_⟩
  split at hr
  · have hc : 0xA0 ≤ b ∧ b ≤ 0xBF := hr
    omega
  · split at hr
    · have hc : 0x80 ≤ b ∧ b ≤ 0x9F := hr
      omega
    · have hc : 0x80 ≤ b ∧ b ≤ 0xBF := hr
      omega

theorem exists_of_secondOfFour_holds {m b : Nat} (hb : b < 256)
    (h : (secondOfFour m).holds (UInt8.ofNat b) = true) :
    ∃ n < 64, b = n + 0x80 ∧ (m = 0 → 16 ≤ n) ∧ (m = 4 → n < 16) := by
  have hr := le_of_holds hb h
  rw [secondOfFour] at hr
  refine ⟨b - 0x80, ?_⟩
  split at hr
  · have hc : 0x90 ≤ b ∧ b ≤ 0xBF := hr
    omega
  · split at hr
    · have hc : 0x80 ≤ b ∧ b ≤ 0x8F := hr
      omega
    · have hc : 0x80 ≤ b ∧ b ≤ 0xBF := hr
      omega

/-- A scan that finds only characters reads on at every byte inside one. -/
theorem scanFrom_inside {value : Nat} {next : Range} {later : Nat} {bytes : List UInt8}
    {l : List Char} (h : scanFrom (.inside value next later) bytes = l.map some) :
    ∃ b < 256, ∃ rest, bytes = UInt8.ofNat b :: rest ∧ next.holds (UInt8.ofNat b) = true := by
  cases bytes with
  | nil =>
    cases l with
    | nil => cases h
    | cons c l => cases h
  | cons b rest =>
    refine ⟨b.toNat, b.toNat_lt, rest, by rw [UInt8.ofNat_toNat], ?_⟩
    rw [UInt8.ofNat_toNat]
    by_cases hb : next.holds b
    · exact hb
    · rw [scanFrom_cons] at h
      simp only [step, hb] at h
      cases l with
      | nil => cases h
      | cons c l => cases h

/-! ## The first character of a byte string -/

theorem toNat_ofNat {v : Nat} (h : v < 0xD800 ∨ 0xDFFF < v ∧ v < 0x110000) :
    (Char.ofNat v).val.toNat = v := by
  have hv : Nat.isValidChar v := h
  rw [Char.ofNat, dif_pos hv]
  rfl

theorem encodeChar_one {n : Nat} (hn : n < 128) :
    String.utf8EncodeChar (Char.ofNat n) = [UInt8.ofNat n] := by
  have hv := toNat_ofNat (v := n) (by omega)
  unfold String.utf8EncodeChar
  simp only [hv]
  rw [if_pos (by omega)]

theorem encodeChar_two {m n v : Nat} (hv : v = m * 64 + n) (hm : m < 32) (h2 : 2 ≤ m)
    (hn : n < 64) :
    String.utf8EncodeChar (Char.ofNat v) = [UInt8.ofNat (m + 0xC0), UInt8.ofNat (n + 0x80)] := by
  have h1 : v / 64 % 32 = m := by omega
  have h0 : v % 64 = n := by omega
  unfold String.utf8EncodeChar
  simp only [toNat_ofNat (v := v) (by omega)]
  rw [if_neg (by omega), if_pos (by omega), h1, h0]

theorem encodeChar_three {m n k v : Nat} (hv : v = (m * 64 + n) * 64 + k) (hm : m < 16)
    (hn : n < 64) (hk : k < 64) (hl : m = 0 → 32 ≤ n) (hs : m = 13 → n < 32) :
    String.utf8EncodeChar (Char.ofNat v) =
      [UInt8.ofNat (m + 0xE0), UInt8.ofNat (n + 0x80), UInt8.ofNat (k + 0x80)] := by
  have h2 : v / 4096 % 16 = m := by omega
  have h1 : v / 64 % 64 = n := by omega
  have h0 : v % 64 = k := by omega
  unfold String.utf8EncodeChar
  simp only [toNat_ofNat (v := v) (by omega)]
  rw [if_neg (by omega), if_neg (by omega), if_pos (by omega), h2, h1, h0]

theorem encodeChar_four {m n k j v : Nat} (hv : v = ((m * 64 + n) * 64 + k) * 64 + j) (hm : m < 5)
    (hn : n < 64) (hk : k < 64) (hj : j < 64) (hl : m = 0 → 16 ≤ n) (hs : m = 4 → n < 16) :
    String.utf8EncodeChar (Char.ofNat v) =
      [UInt8.ofNat (m + 0xF0), UInt8.ofNat (n + 0x80), UInt8.ofNat (k + 0x80),
        UInt8.ofNat (j + 0x80)] := by
  have h3 : v / 262144 % 8 = m := by omega
  have h2 : v / 4096 % 64 = n := by omega
  have h1 : v / 64 % 64 = k := by omega
  have h0 : v % 64 = j := by omega
  unfold String.utf8EncodeChar
  simp only [toNat_ofNat (v := v) (by omega)]
  rw [if_neg (by omega), if_neg (by omega), if_neg (by omega), h3, h2, h1, h0]

/-- A scan that finds a character first has read its encoding. -/
theorem scanFrom_idle_cons {bytes : List UInt8} {c : Char} {l : List Char}
    (h : scanFrom .idle bytes = (c :: l).map some) :
    ∃ rest, bytes = String.utf8EncodeChar c ++ rest ∧ scanFrom .idle rest = l.map some := by
  cases bytes with
  | nil => cases h
  | cons lead rest =>
    obtain ⟨b, hb, rfl⟩ : ∃ b < 256, lead = UInt8.ofNat b :=
      ⟨lead.toNat, lead.toNat_lt, by rw [UInt8.ofNat_toNat]⟩
    rw [scanFrom_cons, step] at h
    -- One case for each number of bytes; the later bytes come from `scanFrom_inside`.
    obtain ha | hn | ⟨m, hm, h2, rfl⟩ | ⟨m, hm, rfl⟩ | ⟨m, hm, rfl⟩ := begin_cases b hb
    · rw [begin_ascii b ha] at h
      obtain ⟨hc, hl⟩ := List.cons.inj h
      rw [← Option.some.inj hc, encodeChar_one ha]
      exact ⟨rest, rfl, hl⟩
    · rw [hn] at h
      cases h
    · rw [begin_two m hm h2] at h
      obtain ⟨b, hb, rest, rfl, hr⟩ := scanFrom_inside h
      obtain ⟨n, hn, rfl⟩ := exists_of_continuation_holds hb hr
      have hs := (scanFrom_last m continuation n rest hn hr).symm.trans h
      obtain ⟨hc, hl⟩ := List.cons.inj hs
      rw [← Option.some.inj hc, encodeChar_two rfl hm h2 hn]
      exact ⟨rest, rfl, hl⟩
    · rw [begin_three m hm] at h
      obtain ⟨b, hb, rest, rfl, hr⟩ := scanFrom_inside h
      obtain ⟨n, hn, rfl, h0, h13⟩ := exists_of_secondOfThree_holds hb hr
      replace h := (scanFrom_more m (secondOfThree m) 0 n rest hn hr).symm.trans h
      obtain ⟨b, hb, rest, rfl, hr⟩ := scanFrom_inside h
      obtain ⟨k, hk, rfl⟩ := exists_of_continuation_holds hb hr
      have hs := (scanFrom_last (m * 64 + n) continuation k rest hk hr).symm.trans h
      obtain ⟨hc, hl⟩ := List.cons.inj hs
      rw [← Option.some.inj hc, encodeChar_three rfl hm hn hk h0 h13]
      exact ⟨rest, rfl, hl⟩
    · rw [begin_four m hm] at h
      obtain ⟨b, hb, rest, rfl, hr⟩ := scanFrom_inside h
      obtain ⟨n, hn, rfl, h0, h4⟩ := exists_of_secondOfFour_holds hb hr
      replace h := (scanFrom_more m (secondOfFour m) 1 n rest hn hr).symm.trans h
      obtain ⟨b, hb, rest, rfl, hr⟩ := scanFrom_inside h
      obtain ⟨k, hk, rfl⟩ := exists_of_continuation_holds hb hr
      replace h := (scanFrom_more (m * 64 + n) continuation 0 k rest hk hr).symm.trans h
      obtain ⟨b, hb, rest, rfl, hr⟩ := scanFrom_inside h
      obtain ⟨j, hj, rfl⟩ := exists_of_continuation_holds hb hr
      have hs := (scanFrom_last ((m * 64 + n) * 64 + k) continuation j rest hj hr).symm.trans h
      obtain ⟨hc, hl⟩ := List.cons.inj hs
      rw [← Option.some.inj hc, encodeChar_four rfl hm hn hk hj h0 h4]
      exact ⟨rest, rfl, hl⟩

/-! ## Whole byte strings -/

theorem begin_silent {b : UInt8} (h : (begin b).1 = []) : (begin b).2 ≠ .idle := by
  unfold begin at h ⊢
  split
  · rename_i ha
    rw [if_pos ha] at h
    cases h
  · rename_i ha
    rw [if_neg ha] at h
    unfold lead at h ⊢
    split <;> grind

/-- A step that completes no piece is inside a character. -/
theorem step_silent {state : State} {b : UInt8} (h : (step state b).1 = []) :
    (step state b).2 ≠ .idle := by
  cases state with
  | idle => exact begin_silent h
  | inside value next later =>
    by_cases hb : next.holds b
    · cases later with
      | zero =>
        simp only [step, hb, if_true] at h
        cases h
      | succ later =>
        simp only [step, hb, if_true]
        exact State.noConfusion
    · simp only [step, hb] at h
      cases h

theorem scanFrom_eq_nil {state : State} {bytes : List UInt8} (h : scanFrom state bytes = []) :
    state = .idle ∧ bytes = [] := by
  induction bytes generalizing state with
  | nil =>
    cases state with
    | idle => exact ⟨rfl, rfl⟩
    | inside value next later => cases h
  | cons b rest ih =>
    rw [scanFrom_cons, List.append_eq_nil_iff] at h
    exact absurd (ih h.2).1 (step_silent h.1)

theorem eq_flatMap_of_scan {bytes : List UInt8} {l : List Char}
    (h : scan bytes = l.map some) : bytes = l.flatMap String.utf8EncodeChar := by
  rw [scan] at h
  induction l generalizing bytes with
  | nil => exact (scanFrom_eq_nil h).2
  | cons c l ih =>
    obtain ⟨rest, rfl, hr⟩ := scanFrom_idle_cons h
    rw [List.flatMap_cons, ih hr]

theorem decode?_eq_some_iff {bytes : List UInt8} {text : String} :
    decode? bytes = some text ↔ bytes = encode text := by
  constructor
  · intro h
    rw [decode?, Option.map_eq_some_iff] at h
    obtain ⟨l, hl, rfl⟩ := h
    rw [mapM_eq_some_iff, List.map_id] at hl
    rw [encode_ofList]
    exact eq_flatMap_of_scan hl
  · rintro rfl
    exact decode?_encode text

/-- A byte that is a character by itself comes first only where that character does. -/
theorem head?_of_encode {text : String} {b : UInt8} (hb : b.toNat < 128)
    (h : (encode text).head? = some b) : text.toList.head? = some (Char.ofNat b.toNat) := by
  obtain ⟨rest, hr⟩ := List.head?_eq_some_iff.mp h
  have hs := scan_encode text
  have ha := begin_ascii b.toNat hb
  rw [UInt8.ofNat_toNat] at ha
  rw [hr, scan, scanFrom_cons, step, ha] at hs
  cases hl : text.toList with
  | nil =>
    rw [hl] at hs
    cases hs
  | cons c l =>
    rw [hl] at hs
    rw [List.head?_cons, ← Option.some.inj (List.cons.inj hs).1]

/-! ## The order of texts -/

theorem compare_eq_lt_iff {a b : String} : compare a b = .lt ↔ encode a < encode b := by
  unfold compare
  split
  · rename_i h
    exact ⟨fun _ => h, fun _ => rfl⟩
  · rename_i h
    constructor
    · intro hc
      split at hc <;> cases hc
    · intro hl
      exact absurd hl h

theorem compare_eq_eq_iff {a b : String} : compare a b = .eq ↔ a = b := by
  unfold compare
  constructor
  · intro h
    split at h
    · cases h
    · split at h
      · exact encode_injective ‹_›
      · cases h
  · rintro rfl
    rw [if_neg (List.lt_irrefl (encode a)), if_pos rfl]

theorem encode_trichotomy (a b : String) : encode a < encode b ∨ a = b ∨ encode b < encode a := by
  by_cases h : encode a < encode b
  · exact .inl h
  · obtain hl | he := List.le_iff_lt_or_eq.mp (List.not_lt.mp h)
    · exact .inr (.inr hl)
    · exact .inr (.inl (encode_injective he.symm))

theorem compare_eq_gt_iff {a b : String} : compare a b = .gt ↔ encode b < encode a := by
  unfold compare
  obtain h | rfl | h := encode_trichotomy a b
  · rw [if_pos h]
    exact ⟨fun hc => (nomatch hc), fun hl => absurd hl (List.lt_asymm h)⟩
  · rw [if_neg (List.lt_irrefl _), if_pos rfl]
    exact ⟨fun hc => (nomatch hc), fun hl => absurd hl (List.lt_irrefl _)⟩
  · have hne : encode a ≠ encode b := by
      intro he
      rw [he] at h
      exact List.lt_irrefl _ h
    rw [if_neg (List.lt_asymm h), if_neg hne]
    exact ⟨fun _ => h, fun _ => rfl⟩

theorem le_iff {a b : String} : le a b = true ↔ encode a ≤ encode b := by
  rw [le, bne_iff_ne, ne_eq, compare_eq_gt_iff, List.not_lt]

theorem le_trans (a b c : String) (hab : le a b = true) (hbc : le b c = true) : le a c = true :=
  le_iff.mpr (List.le_trans (le_iff.mp hab) (le_iff.mp hbc))

theorem le_total (a b : String) : (le a b || le b a) = true := by
  rw [Bool.or_eq_true, le_iff, le_iff]
  exact List.le_total (encode a) (encode b)

end HandlerRegistry.Utf8
