import HandlerRegistry.Text.Quoted
import Mathlib.Tactic.SplitIfs

/-! # Lines of a text

A text is cut at every line feed. The lines of texts joined by line feeds are the lines of the texts
(`lines_append`, `lines_intercalate`), so a reader of single lines reads them one text after another
(`filterMap_lines_intercalate`). A quoted text never spans two lines (`newline_not_mem_quoted`). -/

namespace HandlerRegistry.Text
set_option autoImplicit false

/-- The lines of a text; the last one ends with the text. -/
def lines (text : String) : List (List Char) := text.toList.splitOn '\n'

theorem lines_append (a b : String) : lines (a ++ ("\n" ++ b)) = lines a ++ lines b := by
  have hn : "\n".toList = ['\n'] := by decide
  rw [lines, String.toList_append, String.toList_append, hn, List.singleton_append,
    List.splitOn_append_cons_self]
  rfl

theorem lines_of_not_mem {text : String} (h : '\n' ∉ text.toList) : lines text = [text.toList] :=
  List.splitOn_eq_singleton h

theorem lines_eq_singleton_iff {text : String} {line : List Char} :
    lines text = [line] ↔ '\n' ∉ text.toList ∧ line = text.toList := by
  constructor
  · intro h
    have hn : '\n' ∉ text.toList := by
      intro hm
      obtain ⟨before, after, he⟩ := List.append_of_mem hm
      rw [lines, he, List.splitOn_append_cons_self, List.append_eq_singleton_iff] at h
      obtain ⟨hb, -⟩ | ⟨-, ha⟩ := h
      · exact List.splitOn_ne_nil _ _ hb
      · exact List.splitOn_ne_nil _ _ ha
    rw [lines_of_not_mem hn] at h
    exact ⟨hn, (List.cons.inj h).1.symm⟩
  · rintro ⟨hn, rfl⟩
    exact lines_of_not_mem hn

theorem lines_intercalate (text : String) (texts : List String) :
    lines ("\n".intercalate (text :: texts)) = (text :: texts).flatMap lines := by
  induction texts generalizing text with
  | nil => simp
  | cons next texts ih =>
    rw [String.intercalate_cons_cons, String.append_assoc, lines_append, ih]
    rfl

/-! ## Readers of single lines -/

section
variable {β : Type} {read : List Char → Option β}

theorem filterMap_lines_intercalate (h : read [] = none) (texts : List String) :
    (lines ("\n".intercalate texts)).filterMap read =
      texts.flatMap fun text => (lines text).filterMap read := by
  cases texts with
  | nil =>
    have he : lines ("\n".intercalate []) = [[]] := rfl
    rw [he, List.filterMap_cons_none h]
    rfl
  | cons text texts => rw [lines_intercalate, List.filterMap_flatMap]

theorem filterMap_lines_of_not_mem {text : String} (h : '\n' ∉ text.toList) :
    (lines text).filterMap read = (read text.toList).toList := by
  rw [lines_of_not_mem h, List.filterMap_cons, List.filterMap_nil]
  cases read text.toList <;> rfl

end

/-- The lines of a text in which something is read, each with what is read in it. -/
def readLines {β : Type} (read : List Char → Option β) (text : String) : List (String × β) :=
  (lines text).filterMap fun line => (read line).map fun found => (String.ofList line, found)

/-! ## Quoted texts -/

theorem newline_not_mem_toDigits (n : Nat) : '\n' ∉ Nat.toDigits 16 n := by
  have hd : ∀ d < 16, Nat.digitChar d ≠ '\n' := by decide
  induction n using Nat.strongRecOn with
  | ind n ih =>
    rw [Nat.toDigits_eq_if (by decide)]
    split
    · rename_i hn
      exact fun hm => hd n hn (List.mem_singleton.mp hm).symm
    · rename_i hn
      rw [List.mem_append, List.mem_singleton]
      rintro (hm | he)
      · exact ih (n / 16) (by omega) hm
      · exact hd (n % 16) (by omega) he.symm

theorem newline_not_mem_escape {quote : Char} (hq : quote ≠ '\n') (c : Char) :
    '\n' ∉ escape quote c := by
  rw [escape]
  split_ifs with h0 ht hr hn hb hc hs
  · decide
  · decide
  · decide
  · decide
  · decide
  · rw [List.mem_cons, List.mem_singleton]
    rintro (he | he)
    · exact absurd he (by decide)
    · exact hq he.symm
  · exact fun hm => hn (List.mem_singleton.mp hm).symm
  · rw [escapePoint]
    simp only [List.mem_cons, List.mem_append, List.not_mem_nil, or_false]
    rintro (he | he | he | hm | he)
    · exact absurd he (by decide)
    · exact absurd he (by decide)
    · exact absurd he (by decide)
    · exact newline_not_mem_toDigits c.toNat hm
    · exact absurd he (by decide)

/-- A quoted text is written on one line, whatever it holds. -/
theorem newline_not_mem_quoted (text : String) : '\n' ∉ (quoted text).toList := by
  rw [toList_quoted, enclose, List.mem_cons, List.mem_append, List.mem_flatMap,
    List.mem_singleton]
  rintro (he | ⟨c, -, hm⟩ | he)
  · exact absurd he (by decide)
  · exact newline_not_mem_escape (by decide) c hm
  · exact absurd he (by decide)

theorem newline_not_mem_intercalate {mark : String} (hm : '\n' ∉ mark.toList)
    {texts : List String} (h : ∀ text ∈ texts, '\n' ∉ text.toList) :
    '\n' ∉ (mark.intercalate texts).toList := by
  induction texts with
  | nil =>
    rw [String.intercalate_nil]
    decide
  | cons text texts ih =>
    obtain ⟨ht, hr⟩ := List.forall_mem_cons.mp h
    cases texts with
    | nil =>
      rw [String.intercalate_singleton]
      exact ht
    | cons next texts =>
      rw [String.intercalate_cons_cons]
      simp only [String.toList_append, List.mem_append, not_or]
      exact ⟨⟨ht, hm⟩, ih hr⟩

theorem newline_not_mem_quotedList (texts : List String) :
    '\n' ∉ (quotedList texts).toList := by
  have hq : ∀ text ∈ texts.map quoted, '\n' ∉ text.toList := by
    intro text hm
    obtain ⟨content, -, rfl⟩ := List.mem_map.mp hm
    exact newline_not_mem_quoted content
  rw [quotedList]
  simp only [String.toList_append, List.mem_append, not_or]
  exact ⟨⟨by decide, newline_not_mem_intercalate (by decide) hq⟩, by decide⟩

end HandlerRegistry.Text
