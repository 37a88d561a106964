import HandlerRegistry.Text.Utf8

/-!
# Decoding what was encoded

* `scan_encode`: the pieces of an encoded text are its characters.
* `decode?_encode`, `lossy_encode`: both readings of an encoded text give the text back.
* `encode_injective`: two texts with the same bytes are equal.
-/

namespace HandlerRegistry.Utf8
set_option autoImplicit false

/-! ## Lead and continuation bytes -/

/-- The second bytes that may follow the lead byte of three with the given payload. -/
def secondOfThree (payload : Nat) : Range :=
  if payload = 0 then ⟨0xA0, 0xBF⟩ else if payload = 13 then ⟨0x80, 0x9F⟩ else continuation

/-- The second bytes that may follow the lead byte of four with the given payload. -/
def secondOfFour (payload : Nat) : Range :=
  if payload = 0 then ⟨0x90, 0xBF⟩ else if payload = 4 then ⟨0x80, 0x8F⟩ else continuation

theorem begin_ascii : ∀ n < 128, begin (UInt8.ofNat n) = ([some (Char.ofNat n)], .idle) := by
  decide

theorem begin_two : ∀ n < 32, 2 ≤ n →
    begin (UInt8.ofNat (n + 0xC0)) = ([], .inside n continuation 0) := by
  decide

theorem begin_three : ∀ n < 16,
    begin (UInt8.ofNat (n + 0xE0)) = ([], .inside n (secondOfThree n) 1) := by
  decide

theorem begin_four : ∀ n < 5,
    begin (UInt8.ofNat (n + 0xF0)) = ([], .inside n (secondOfFour n) 2) := by
  decide

theorem continuation_holds : ∀ n < 64, continuation.holds (UInt8.ofNat (n + 0x80)) = true := by
  decide

theorem payload_continuation : ∀ n < 64, (UInt8.ofNat (n + 0x80)).toNat - 0x80 = n := by
  decide

theorem secondOfThree_holds : ∀ m < 16, ∀ n < 64, (m = 0 → 32 ≤ n) → (m = 13 → n < 32) →
    (secondOfThree m).holds (UInt8.ofNat (n + 0x80)) = true := by
  decide

theorem secondOfFour_holds : ∀ m < 5, ∀ n < 64, (m = 0 → 16 ≤ n) → (m = 4 → n < 16) →
    (secondOfFour m).holds (UInt8.ofNat (n + 0x80)) = true := by
  decide

/-! ## Steps inside a character -/

theorem scanFrom_cons (state : State) (b : UInt8) (rest : List UInt8) :
    scanFrom state (b :: rest) = (step state b).1 ++ scanFrom (step state b).2 rest := by
  cases state <;> rfl

theorem scanFrom_more (value : Nat) (next : Range) (later n : Nat) (rest : List UInt8)
    (hn : n < 64) (hr : next.holds (UInt8.ofNat (n + 0x80)) = true) :
    scanFrom (.inside value next (later + 1)) (UInt8.ofNat (n + 0x80) :: rest) =
      scanFrom (.inside (value * 64 + n) continuation later) rest := by
  rw [scanFrom_cons]
  simp only [step, hr, if_true, payload_continuation n hn, List.nil_append]

theorem scanFrom_last (value : Nat) (next : Range) (n : Nat) (rest : List UInt8)
    (hn : n < 64) (hr : next.holds (UInt8.ofNat (n + 0x80)) = true) :
    scanFrom (.inside value next 0) (UInt8.ofNat (n + 0x80) :: rest) =
      some (Char.ofNat (value * 64 + n)) :: scanFrom .idle rest := by
  rw [scanFrom_cons]
  simp only [step, hr, if_true, payload_continuation n hn, List.cons_append, List.nil_append]

/-! ## Whole characters -/

theorem scanFrom_encodeChar (c : Char) (rest : List UInt8) :
    scanFrom .idle (String.utf8EncodeChar c ++ rest) = some c :: scanFrom .idle rest := by
  have hc : Char.ofNat c.val.toNat = c := Char.ofNat_toNat c
  have hv : c.val.toNat < 0xD800 ∨ 0xDFFF < c.val.toNat ∧ c.val.toNat < 0x110000 := c.valid
  generalize hw : c.val.toNat = v at hc hv
  unfold String.utf8EncodeChar
  simp only [hw]
  by_cases h1 : v ≤ 0x7F
  · rw [if_pos h1, List.cons_append, List.nil_append, scanFrom_cons, step,
      begin_ascii v (by omega), hc]
    rfl
  by_cases h2 : v ≤ 0x7FF
  · rw [if_neg h1, if_pos h2, List.cons_append, List.cons_append, List.nil_append, scanFrom_cons,
      step, begin_two (v / 64 % 0x20) (by omega) (by omega)]
    have e : v / 64 % 0x20 * 64 + v % 64 = v := by omega
    have h := scanFrom_last (v / 64 % 0x20) continuation (v % 0x40) rest (by omega)
      (continuation_holds _ (by omega))
    rw [e, hc] at h
    exact h
  by_cases h3 : v ≤ 0xFFFF
  · rw [if_neg h1, if_neg h2, if_pos h3]
    simp only [List.cons_append, List.nil_append]
    rw [scanFrom_cons, step, begin_three (v / 4096 % 0x10) (by omega)]
    have e : (v / 4096 % 0x10 * 64 + v / 64 % 0x40) * 64 + v % 0x40 = v := by omega
    have hs := secondOfThree_holds (v / 4096 % 0x10) (by omega) (v / 64 % 0x40) (by omega)
      (by omega) (by omega)
    have ha := scanFrom_more (v / 4096 % 0x10) (secondOfThree (v / 4096 % 0x10)) 0 (v / 64 % 0x40)
      (UInt8.ofNat (v % 0x40 + 0x80) :: rest) (by omega) hs
    have hb := scanFrom_last (v / 4096 % 0x10 * 64 + v / 64 % 0x40) continuation (v % 0x40) rest
      (by omega) (continuation_holds _ (by omega))
    rw [e, hc] at hb
    exact ha.trans hb
  · rw [if_neg h1, if_neg h2, if_neg h3]
    simp only [List.cons_append, List.nil_append]
    rw [scanFrom_cons, step, begin_four (v / 262144 % 0x08) (by omega)]
    have e : ((v / 262144 % 0x08 * 64 + v / 4096 % 0x40) * 64 + v / 64 % 0x40) * 64 + v % 0x40 = v :=
      by omega
    have hs := secondOfFour_holds (v / 262144 % 0x08) (by omega) (v / 4096 % 0x40) (by omega)
      (by omega) (by omega)
    have ha := scanFrom_more (v / 262144 % 0x08) (secondOfFour (v / 262144 % 0x08)) 1
      (v / 4096 % 0x40)
      (UInt8.ofNat (v / 64 % 0x40 + 0x80) :: UInt8.ofNat (v % 0x40 + 0x80) :: rest) (by omega) hs
    have hb := scanFrom_more (v / 262144 % 0x08 * 64 + v / 4096 % 0x40) continuation 0
      (v / 64 % 0x40) (UInt8.ofNat (v % 0x40 + 0x80) :: rest) (by omega)
      (continuation_holds _ (by omega))
    have hd := scanFrom_last
      ((v / 262144 % 0x08 * 64 + v / 4096 % 0x40) * 64 + v / 64 % 0x40) continuation (v % 0x40) rest
      (by omega) (continuation_holds _ (by omega))
    rw [e, hc] at hd
    exact ha.trans (hb.trans hd)

/-! ## Whole texts -/

theorem scan_flatMap (l : List Char) : scan (l.flatMap String.utf8EncodeChar) = l.map some := by
  induction l with
  | nil => rfl
  | cons c rest ih =>
    rw [List.flatMap_cons, scan, scanFrom_encodeChar]
    exact congrArg (some c :: ·) ih

theorem scan_encode (text : String) : scan (encode text) = text.toList.map some :=
  scan_flatMap text.toList

theorem mapM_id_map_some (l : List Char) : (l.map some).mapM id = some l := by
  induction l with
  | nil => rfl
  | cons c rest ih => simp [ih]

theorem decode?_encode (text : String) : decode? (encode text) = some text := by
  rw [decode?, scan_encode, mapM_id_map_some]
  simp

theorem lossy_encode (text : String) : lossy (encode text) = text := by
  rw [lossy, scan_encode, List.map_map]
  have h : ((fun o : Option Char => o.getD '\uFFFD') ∘ some) = id := rfl
  simp [h]

theorem encode_injective {a b : String} (h : encode a = encode b) : a = b := by
  have ha := decode?_encode a
  rw [h, decode?_encode b] at ha
  exact (Option.some.inj ha).symm

end HandlerRegistry.Utf8
