import HandlerRegistry.Proofs.Discovery.Collect

/-! # What the name of an entry denotes

The rules of the stem and of the first fault say together that a name denotes an identifier if it is
that identifier, or, for anything but a directory, if one dot and a text without dots follow it
(`Denotes`). An entry has an identifier exactly if its name denotes it (`identify_eq_some_iff`). -/

namespace HandlerRegistry
set_option autoImplicit false

/-! ## Stems -/

namespace Discovery

theorem stem_eq_iff {name : List Char} {id : Identifier} : stem name = id.text.toList ↔
    name = id.text.toList ∨ ∃ ext, '.' ∉ ext ∧ name = id.text.toList ++ '.' :: ext := by
  have hd : '.' ∉ id.text.toList := id.not_mem (by decide)
  unfold stem
  split
  · rename_i after hs
    -- The only dot comes first: nothing is cut off, and neither side can hold.
    obtain ⟨rfl, hn⟩ := Text.splitLast_eq_some.mp hs
    have hl : [] ++ '.' :: after ≠ id.text.toList := fun e => hd (e ▸ List.mem_cons_self)
    refine iff_of_false hl (not_or.mpr ⟨hl, ?_⟩)
    rintro ⟨ext, -, he⟩
    obtain ⟨first, rest, hf, -, -⟩ := id.exists_chars
    rw [hf, List.nil_append, List.cons_append] at he
    rw [hf, ← (List.cons.inj he).1] at hd
    exact hd List.mem_cons_self
  · rename_i before after hne hs
    obtain ⟨rfl, hn⟩ := Text.splitLast_eq_some.mp hs
    constructor
    · intro hb
      exact .inr ⟨after, hn, by rw [hb]⟩
    · rintro (he | ⟨ext, hx, he⟩)
      · exact absurd (he ▸ List.mem_append_right before List.mem_cons_self) hd
      · rw [he, Text.splitLast_eq_some.mpr ⟨rfl, hx⟩] at hs
        exact (Prod.mk.inj (Option.some.inj hs)).1.symm
  · rename_i hs
    have hn := Text.splitLast_eq_none.mp hs
    refine ⟨.inl, ?_⟩
    rintro (he | ⟨ext, -, he⟩)
    · exact he
    · exact absurd (he ▸ List.mem_append_right _ List.mem_cons_self) hn

theorem parse_baseName_eq_ok_iff {isDirectory : Bool} {text : String} {id : Identifier} :
    Identifier.parse (baseName isDirectory text) = .ok id ↔
      text = id.text ∨
        isDirectory = false ∧ ∃ ext : String, '.' ∉ ext.toList ∧ text = id.text ++ "." ++ ext := by
  rw [Identifier.parse_eq_ok_iff, baseName]
  cases isDirectory with
  | true => simp
  | false =>
    rw [if_neg Bool.false_ne_true, ← String.toList_inj, String.toList_ofList, stem_eq_iff,
      String.toList_inj]
    refine or_congr_right ⟨?_, ?_⟩
    · rintro ⟨ext, hx, he⟩
      refine ⟨rfl, String.ofList ext, by rwa [String.toList_ofList], ?_⟩
      rw [← String.toList_inj, he]
      simp
    · rintro ⟨-, ext, hx, rfl⟩
      exact ⟨ext.toList, hx, by simp⟩

/-! ## Names -/

/-- The name of an entry denotes an identifier: it is that identifier, or, if the entry is no
directory, that identifier and an extension, which may be empty but holds no dot. -/
def Denotes (isDirectory : Bool) (name : Name) (id : Identifier) : Prop :=
  name.bytes = Utf8.encode id.text ∨
    isDirectory = false ∧ ∃ ext : String, '.' ∉ ext.toList ∧
      name.bytes = Utf8.encode (id.text ++ "." ++ ext)

theorem Denotes.exists_text {isDirectory : Bool} {name : Name} {id : Identifier}
    (h : Denotes isDirectory name id) :
    ∃ text, name.bytes = Utf8.encode text ∧
      Identifier.parse (baseName isDirectory text) = .ok id := by
  obtain hb | ⟨hd, ext, hx, hb⟩ := h
  · exact ⟨_, hb, parse_baseName_eq_ok_iff.mpr (.inl rfl)⟩
  · exact ⟨_, hb, parse_baseName_eq_ok_iff.mpr (.inr ⟨hd, ext, hx, rfl⟩)⟩

theorem Denotes.isHidden {isDirectory : Bool} {name : Name} {id : Identifier}
    (h : Denotes isDirectory name id) : name.isHidden = false := by
  obtain ⟨first, rest, hf, hs, -⟩ := id.exists_chars
  have hne : first ≠ '.' := by
    rintro rfl
    exact absurd hs (by decide)
  have hc : ∀ tail : String, (Utf8.encode (id.text ++ tail)).head? ≠ some dot := by
    intro tail he
    have ht : (id.text ++ tail).toList.head? = some '.' := Utf8.head?_of_encode (by decide) he
    rw [String.toList_append, hf] at ht
    exact hne (Option.some.inj ht)
  rw [Name.isHidden, beq_eq_false_iff_ne]
  obtain hb | ⟨-, ext, -, hb⟩ := h
  · rw [hb, ← String.append_empty (s := id.text)]
    exact hc ""
  · rw [hb, String.append_assoc]
    exact hc _

/-- An entry has an identifier exactly if its name denotes that identifier. -/
theorem identify_eq_some_iff {tree : FileTree} {path : Path} {name : Name} {id : Identifier} :
    identify tree path name = .ok (some id) ↔ Denotes (tree.isDirectory path) name id := by
  constructor
  · intro h
    unfold identify at h
    split at h
    · cases h
    · rename_i text ht
      have hb := Utf8.decode?_eq_some_iff.mp ht
      split at h
      · cases h
      · split at h
        · rename_i found hp
          cases h
          obtain rfl | ⟨hd, ext, hx, rfl⟩ := parse_baseName_eq_ok_iff.mp hp
          · exact .inl hb
          · exact .inr ⟨hd, ext, hx, hb⟩
        · cases h
  · intro h
    obtain ⟨text, hb, hp⟩ := h.exists_text
    simp only [identify, Utf8.decode?_eq_some_iff.mpr hb, h.isHidden, hp]
    rfl

theorem Denotes.unique {isDirectory : Bool} {name : Name} {a b : Identifier}
    (ha : Denotes isDirectory name a) (hb : Denotes isDirectory name b) : a = b := by
  obtain ⟨s, hs, hp⟩ := ha.exists_text
  obtain ⟨t, ht, hq⟩ := hb.exists_text
  rw [← Utf8.encode_injective (hs.symm.trans ht), hp] at hq
  exact Except.ok.inj hq

theorem identify_eq_none_iff {tree : FileTree} {path : Path} {name : Name} :
    identify tree path name = .ok none ↔
      name.isHidden = true ∧ ∃ text, name.bytes = Utf8.encode text := by
  unfold identify
  split
  · rename_i hn
    refine iff_of_false (fun e => nomatch e) ?_
    rintro ⟨-, text, ht⟩
    rw [Utf8.decode?_eq_some_iff.mpr ht] at hn
    cases hn
  · rename_i text ht
    have hb := Utf8.decode?_eq_some_iff.mp ht
    cases hh : name.isHidden with
    | true => exact iff_of_true rfl ⟨rfl, text, hb⟩
    | false =>
      refine iff_of_false ?_ (fun e => nomatch e.1)
      intro e
      split at e
      · contradiction
      · split at e <;> cases e

end Discovery
end HandlerRegistry
