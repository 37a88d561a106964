import HandlerRegistry.Proofs.Text.Lines
import HandlerRegistry.Text.Split
import Mathlib.Data.List.Infix

/-! # Occurrences of a mark

A reader that looks for a mark anywhere in a line and reads on from there. A part of a line that ends
at a separator can be skipped (`readAfter_append_cons`): an occurrence that begins in it would have
to end its own first word at the same separator. -/

namespace HandlerRegistry.Text
set_option autoImplicit false

variable {β : Type}

/-- What can be read after the occurrences of a mark, from left to right. -/
def readAfter (mark : List Char) (read : List Char → Option β) (line : List Char) : List β :=
  line.tails.filterMap fun rest => (stripStart mark rest).bind read

/-- All that can be read after a mark in a line, if anything. -/
def found? (mark : List Char) (read : List Char → Option β) (line : List Char) :
    Option (List β) :=
  match readAfter mark read line with
  | [] => none
  | first :: more => some (first :: more)

/-! ## Parts without an occurrence -/

/-- Two lists that are equal are cut alike at the first separator of each, if neither first part
holds the separator of the other. -/
theorem cut_unique {a b r s : List Char} {d e : Char} (he : e ∉ a) (hd : d ∉ b)
    (h : a ++ d :: r = b ++ e :: s) : a = b ∧ d = e := by
  obtain ⟨t, hb, ht⟩ | ⟨t, ha, ht⟩ := List.append_eq_append_iff.mp h
  · cases t with
    | nil =>
      rw [List.append_nil] at hb
      exact ⟨hb.symm, (List.cons.inj ht).1⟩
    | cons x t =>
      rw [hb, (List.cons.inj ht).1] at hd
      simp at hd
  · cases t with
    | nil =>
      rw [List.append_nil] at ha
      exact ⟨ha, (List.cons.inj ht).1.symm⟩
    | cons x t =>
      rw [ha, (List.cons.inj ht).1] at he
      simp at he

variable {read : List Char → Option β}

theorem readAfter_cons (mark : List Char) (c : Char) (rest : List Char) :
    readAfter mark read (c :: rest) =
      ((stripStart mark (c :: rest)).bind read).toList ++ readAfter mark read rest := by
  rw [readAfter, List.tails, List.filterMap_cons]
  cases (stripStart mark (c :: rest)).bind read <;> rfl

/-- An occurrence at the beginning. -/
theorem readAfter_mark {mark : List Char} (hm : mark ≠ []) (rest : List Char) :
    readAfter mark read (mark ++ rest) =
      (read rest).toList ++ readAfter mark read (mark.tail ++ rest) := by
  cases mark with
  | nil => exact absurd rfl hm
  | cons c mark =>
    rw [List.cons_append, readAfter_cons, ← List.cons_append, stripStart_eq_some.mpr rfl,
      Option.bind_some]
    rfl

/-- The mark is a word, a separator and what follows. The part to skip is followed by a separator
too, and if by the same one, it does not end in the word. -/
theorem readAfter_append_cons {mark word after part rest : List Char} {d e : Char}
    (hm : mark = word ++ e :: after) (he : e ∉ part) (hd : d ∉ word)
    (hn : d = e → ¬ word <:+ part) :
    readAfter mark read (part ++ d :: rest) = readAfter mark read rest := by
  -- An occurrence that begins in the part is cut at its separator where the part ends.
  have skip : ∀ tail, tail <:+ part → stripStart mark (tail ++ d :: rest) = none := by
    intro tail ht
    rw [Option.eq_none_iff_forall_ne_some]
    intro found hf
    have h := stripStart_eq_some.mp hf
    rw [hm, List.append_assoc, List.cons_append] at h
    obtain ⟨rfl, rfl⟩ := cut_unique (fun hm => he (ht.subset hm)) hd h
    exact hn rfl ht
  induction part with
  | nil =>
    have hs := skip [] (List.suffix_refl [])
    rw [List.nil_append] at hs
    rw [List.nil_append, readAfter_cons, hs]
    rfl
  | cons c part ih =>
    have hs := skip (c :: part) (List.suffix_refl _)
    rw [List.cons_append] at hs
    rw [List.cons_append, readAfter_cons, hs]
    refine ih (fun hm => he (List.mem_cons_of_mem c hm)) (fun h hp => ?_) fun tail ht => ?_
    · exact hn h (hp.trans (List.suffix_cons c part))
    · exact skip tail (ht.trans (List.suffix_cons c part))

theorem not_suffix_append {word ending : List Char} (hw : ¬ word <:+ ending)
    (he : ¬ ending <:+ word) (before : List Char) : ¬ word <:+ before ++ ending := by
  intro h
  obtain hs | hs := List.suffix_or_suffix_of_suffix h (List.suffix_append before ending)
  · exact hw hs
  · exact he hs

end HandlerRegistry.Text
