import HandlerRegistry.Artifact.Kind
import HandlerRegistry.Proofs.FileTree.Entry

/-! # The kind that fits a path

Slashes and dots at the end of a path are removed. Then the last segment alone decides the kind: it
is something and `.rs` after it, or not (`kind_of_last_segment`). -/

namespace HandlerRegistry
set_option autoImplicit false

namespace Path

/-! ## The end of a path -/

/-- Bytes that are slashes, and a dot after some of them. -/
inductive Trails : List UInt8 → Prop where
  | nothing : Trails []
  | slashed {run : List UInt8} (h : Trails run) : Trails (run ++ [slash])
  | dotted {run : List UInt8} (h : Trails run) : Trails (run ++ [slash, dot])

/-- Bytes from which nothing can be removed. -/
structure Trimmed (front : List UInt8) : Prop where
  slashed : ¬ [slash] <:+ front
  dotted : ¬ [slash, dot] <:+ front

/-- The last segment of a path from which the slashes and dots at its end are removed. -/
def EndsIn (path : Path) (last : List UInt8) : Prop :=
  ∃ front run, path.bytes = front ++ run ∧ Trails run ∧ Trimmed front ∧
    (Path.mk front).segments.getLast? = some last

theorem exists_trimmed (bytes : List UInt8) :
    ∃ front run, bytes = front ++ run ∧ Trails run ∧ Trimmed front := by
  induction hl : bytes.length using Nat.strongRecOn generalizing bytes with
  | ind length ih =>
    by_cases hs : [slash] <:+ bytes
    · obtain ⟨rest, rfl⟩ := hs
      obtain ⟨front, run, rfl, hr, ht⟩ := ih rest.length (by simp [← hl]) rest rfl
      exact ⟨front, _, List.append_assoc _ _ _, hr.slashed, ht⟩
    · by_cases hd : [slash, dot] <:+ bytes
      · obtain ⟨rest, rfl⟩ := hd
        obtain ⟨front, run, rfl, hr, ht⟩ := ih rest.length (by simp [← hl]) rest rfl
        exact ⟨front, _, List.append_assoc _ _ _, hr.dotted, ht⟩
      · exact ⟨bytes, [], (List.append_nil _).symm, .nothing, hs, hd⟩

theorem exists_endsIn (path : Path) : ∃ last, path.EndsIn last := by
  obtain ⟨front, run, hb, hr, ht⟩ := exists_trimmed path.bytes
  have hne : (Path.mk front).segments ≠ [] := List.splitOn_ne_nil slash front
  exact ⟨_, front, run, hb, hr, ht, List.getLast?_eq_some_getLast hne⟩

theorem Trimmed.eq_nil {other run : List UInt8} (h : Trimmed (other ++ run)) (hr : Trails run) :
    run = [] := by
  cases hr with
  | nothing => rfl
  | slashed hr => exact absurd ⟨_, List.append_assoc _ _ _⟩ h.slashed
  | dotted hr => exact absurd ⟨_, List.append_assoc _ _ _⟩ h.dotted

/-- It does not matter in which order slashes and dots are removed. -/
theorem Trimmed.unique {front other run others : List UInt8} (hf : Trimmed front)
    (ho : Trimmed other) (hr : Trails run) (hs : Trails others)
    (h : front ++ run = other ++ others) : front = other := by
  have hne : slash ≠ dot := by decide
  induction hr generalizing others with
  | nothing =>
    rw [List.append_nil] at h
    subst h
    rw [hf.eq_nil hs, List.append_nil]
  | slashed hr ih =>
    cases hs with
    | nothing =>
      rw [List.append_nil] at h
      subst h
      exact absurd (ho.eq_nil hr.slashed) (by simp)
    | slashed hs =>
      rw [← List.append_assoc, ← List.append_assoc] at h
      exact ih hs (List.append_cancel_right h)
    | dotted hs =>
      have hl := congrArg List.getLast? h
      simp at hl
      exact absurd hl hne
  | dotted hr ih =>
    cases hs with
    | nothing =>
      rw [List.append_nil] at h
      subst h
      exact absurd (ho.eq_nil hr.dotted) (by simp)
    | slashed hs =>
      have hl := congrArg List.getLast? h
      simp at hl
      exact absurd hl.symm hne
    | dotted hs =>
      rw [← List.append_assoc, ← List.append_assoc] at h
      exact ih hs (List.append_cancel_right h)

theorem EndsIn.unique {path : Path} {last other : List UInt8} (h : path.EndsIn last)
    (ho : path.EndsIn other) : other = last := by
  obtain ⟨front, run, hb, hr, ht, hl⟩ := h
  obtain ⟨front', run', hb', hr', ht', hl'⟩ := ho
  obtain rfl := ht.unique ht' hr hr' (hb.symm.trans hb')
  exact Option.some.inj (hl'.symm.trans hl)

/-- Above the last segment there is nothing if that segment is empty or a dot. -/
theorem Trimmed.segments {front last : List UInt8} (h : Trimmed front)
    (hl : (Path.mk front).segments.getLast? = some last) :
    ∃ above, (Path.mk front).segments = above ++ [last] ∧
      (isVoid last = true → above = []) := by
  obtain ⟨above, hs⟩ := List.getLast?_eq_some_iff.mp hl
  refine ⟨above, hs, fun hv => ?_⟩
  have hv := isVoid_iff.mp hv
  obtain hc | ⟨before, after, rfl, hc⟩ := (Path.mk front).segments_cases
  · rw [hs] at hc
    exact (List.append_eq_singleton_iff.mp hc).elim And.left (fun e => absurd e.2 (by simp))
  · rw [hc, List.getLast?_concat] at hl
    obtain rfl := Option.some.inj hl
    obtain rfl | rfl := hv
    · exact absurd (List.suffix_append _ _) h.slashed
    · exact absurd (List.suffix_append _ _) h.dotted

/-! ## Components -/

theorem segments_append_slash (above below : List UInt8) :
    (Path.mk (above ++ slash :: below)).segments =
      (Path.mk above).segments ++ (Path.mk below).segments :=
  List.splitOn_append_cons_self above below

/-- One more segment that is no component makes no difference but for the empty path, which becomes
the root. -/
theorem extension?_append_void (bytes : List UInt8) {void : List UInt8}
    (h : void = [] ∨ void = [dot]) :
    (Path.mk (bytes ++ slash :: void)).extension? = (Path.mk bytes).extension? := by
  have hv : (Path.mk void).segments = [void] := by
    obtain rfl | rfl := h <;> decide
  have hc : [void].filterMap Component.ofSegment = [] := by
    obtain rfl | rfl := h <;> decide
  obtain ⟨first, rest, hs⟩ := List.exists_cons_of_ne_nil (List.splitOn_ne_nil slash bytes)
  have hb : (Path.mk bytes).segments = first :: rest := hs
  simp only [extension?, components, segments_append_slash, hv, hb, List.cons_append,
    List.filterMap_append, hc, List.append_nil]
  by_cases hf : first = []
  · subst hf
    cases rest with
    | nil => rfl
    | cons second rest => simp
  · simp [hf]

theorem extension?_append_trails (bytes : List UInt8) {run : List UInt8} (h : Trails run) :
    (Path.mk (bytes ++ run)).extension? = (Path.mk bytes).extension? := by
  induction h with
  | nothing => rw [List.append_nil]
  | slashed h ih => rw [← List.append_assoc, extension?_append_void _ (.inl rfl), ih]
  | dotted h ih => rw [← List.append_assoc, extension?_append_void _ (.inr rfl), ih]

theorem extensionOf_eq_some_iff {name extension : List UInt8} :
    extensionOf name = some extension ↔
      ∃ base, base ≠ [] ∧ name = base ++ dot :: extension ∧ dot ∉ extension := by
  unfold extensionOf
  cases hs : Text.splitLast dot name with
  | none =>
    refine iff_of_false (fun h => nomatch h) ?_
    rintro ⟨base, -, h⟩
    cases hs.symm.trans (Text.splitLast_eq_some.mpr h)
  | some parts =>
    obtain ⟨before, after⟩ := parts
    simp only [← Text.splitLast_eq_some, hs, Option.some.injEq, Prod.mk.injEq]
    cases before with
    | nil =>
      refine iff_of_false (fun h => nomatch h) ?_
      rintro ⟨base, hb, rfl, -⟩
      exact hb rfl
    | cons first before =>
      constructor
      · rintro h
        exact ⟨_, List.cons_ne_nil _ _, rfl, Option.some.inj h⟩
      · rintro ⟨base, -, rfl, rfl⟩
        rfl

theorem extensionOf_of_void {segment : List UInt8} (h : isVoid segment = true) :
    extensionOf segment = none := by
  obtain rfl | rfl := isVoid_iff.mp h <;> decide

/-- The extension is that of the last segment, unless this one is two dots. -/
theorem extension?_of_segments {path : Path} {above : List (List UInt8)} {last : List UInt8}
    (h : path.segments = above ++ [last]) (hv : isVoid last = true → above = [])
    (hd : last ≠ [dot, dot]) : path.extension? = extensionOf last := by
  by_cases hl : isVoid last = true
  · rw [extensionOf_of_void hl, extension?, components, h, hv hl]
    obtain rfl | rfl := isVoid_iff.mp hl <;> rfl
  · have hn : isVoid last = false := Bool.eq_false_iff.mpr hl
    rw [extension?, getLast?_components_of_segments h hn, Component.ofSegment,
      if_neg (isVoid_eq_false_iff.mp hn), if_neg hd]

theorem extension?_of_dots {path : Path} {above : List (List UInt8)}
    (h : path.segments = above ++ [[dot, dot]]) : path.extension? = none := by
  rw [extension?, getLast?_components_of_segments h (by decide)]
  rfl

end Path

namespace Artifact.Kind

/-! ## Kinds -/

section
variable {path : Path} {above : List (List UInt8)} {last : List UInt8}

/-- Whether a segment is `.rs` after something. -/
def NamesModule (segment : List UInt8) : Prop :=
  ∃ base, base ≠ [] ∧ segment = base ++ Utf8.encode ".rs"

theorem infer_eq_rustModule_iff :
    infer path = .rustModule ↔ path.extension? = some (Utf8.encode "rs") := by
  unfold infer
  split
  · simp [*]
  · simp [*]

theorem infer_eq_cHeader_iff : infer path = .cHeader ↔ ¬ infer path = .rustModule := by
  cases infer path <;> simp

theorem infer_eq_of_iff {other : Path} (h : infer path = .rustModule ↔ infer other = .rustModule) :
    infer path = infer other := by
  cases hp : infer path with
  | rustModule => exact (h.mp hp).symm
  | cHeader =>
    rw [eq_comm, infer_eq_cHeader_iff, ← h, hp]
    exact fun e => nomatch e

theorem infer_congr {other : Path} (h : path.extension? = other.extension?) :
    infer path = infer other := by
  rw [infer, infer, h]

theorem extensionOf_eq_rs_iff :
    Path.extensionOf last = some (Utf8.encode "rs") ↔ NamesModule last := by
  have hs : Utf8.encode ".rs" = dot :: Utf8.encode "rs" := by decide
  have hn : dot ∉ Utf8.encode "rs" := by decide
  rw [Path.extensionOf_eq_some_iff, NamesModule, hs]
  simp only [hn, not_false_eq_true, and_true]

theorem infer_of_segments (h : path.segments = above ++ [last])
    (hv : Path.isVoid last = true → above = []) :
    infer path = .rustModule ↔ NamesModule last := by
  rw [infer_eq_rustModule_iff]
  by_cases hd : last = [dot, dot]
  · subst hd
    rw [Path.extension?_of_dots h]
    refine iff_of_false (fun h => nomatch h) ?_
    rintro ⟨base, hb, he⟩
    have hl := congrArg List.length he
    have hs : (Utf8.encode ".rs").length = 3 := by decide
    simp [hs] at hl
  · rw [Path.extension?_of_segments h hv hd, extensionOf_eq_rs_iff]

theorem infer_of_endsIn (h : path.EndsIn last) :
    infer path = .rustModule ↔ NamesModule last := by
  obtain ⟨front, run, hb, hr, ht, hl⟩ := h
  obtain ⟨above, hs, hv⟩ := ht.segments hl
  have hp : path.extension? = (Path.mk front).extension? := by
    rw [← Path.extension?_append_trails front hr, ← hb]
  rw [infer_congr hp, infer_of_segments hs hv]

theorem infer_below_directory (h : path.EndsIn last) (hv : Path.isVoid last = false)
    (directory : List UInt8) {run : List UInt8} (hr : Path.Trails run) :
    infer ⟨directory ++ slash :: (path.bytes ++ run)⟩ = .rustModule ↔ NamesModule last := by
  obtain ⟨front, others, hb, ho, ht, hl⟩ := h
  obtain ⟨above, hs, -⟩ := ht.segments hl
  have hd : (Path.mk (directory ++ slash :: front)).segments =
      ((Path.mk directory).segments ++ above) ++ [last] := by
    rw [Path.segments_append_slash, hs, List.append_assoc]
  have hp : directory ++ slash :: (path.bytes ++ run) =
      (directory ++ slash :: front) ++ others ++ run := by
    simp [hb]
  rw [hp, infer_congr (Path.extension?_append_trails _ hr),
    infer_congr (Path.extension?_append_trails _ ho), infer_of_segments hd (by simp [hv])]

/-- Every path has one last segment after the slashes and dots at its end are removed. A Rust module
fits the path if that segment is `.rs` after something, and a C header fits it otherwise. No slashes
and dots after the path make a difference, and no directory before it either, unless the segment is
empty or a dot. -/
theorem kind_of_last_segment (path : Path) :
    ∃ last, path.EndsIn last ∧ (∀ other, path.EndsIn other → other = last) ∧
      (infer path = .rustModule ↔ ∃ base, base ≠ [] ∧ last = base ++ Utf8.encode ".rs") ∧
      (infer path = .cHeader ↔ ¬ ∃ base, base ≠ [] ∧ last = base ++ Utf8.encode ".rs") ∧
      (∀ run, Path.Trails run → infer ⟨path.bytes ++ run⟩ = infer path) ∧
      (last ≠ [] → last ≠ [dot] → ∀ directory run, Path.Trails run →
        infer ⟨directory ++ slash :: (path.bytes ++ run)⟩ = infer path) := by
  obtain ⟨last, hl⟩ := path.exists_endsIn
  have hi := infer_of_endsIn hl
  refine ⟨last, hl, fun other ho => hl.unique ho, hi, ?_, ?_, ?_⟩
  · rw [infer_eq_cHeader_iff, hi, NamesModule]
  · intro run hr
    exact infer_congr (Path.extension?_append_trails path.bytes hr)
  · intro hne hdot directory run hr
    have hv : Path.isVoid last = false :=
      Path.isVoid_eq_false_iff.mpr fun h => h.elim hne hdot
    exact infer_eq_of_iff ((infer_below_directory hl hv directory hr).trans hi.symm)

theorem module_under_two_dots :
    infer (Path.ofText "x.rs/./") = .rustModule ∧
      infer ⟨Utf8.encode ".." ++ slash :: (Utf8.encode "x.rs/./" ++ [slash, dot])⟩ =
        .rustModule := by
  obtain ⟨last, -, hu, hm, -, -, hd⟩ := kind_of_last_segment (Path.ofText "x.rs/./")
  have hr : Path.Trails [slash, dot, slash] := .slashed (.dotted .nothing)
  have hl : (Path.ofText "x.rs/./").EndsIn (Utf8.encode "x.rs") :=
    ⟨Utf8.encode "x.rs", _, by decide, hr, ⟨by decide, by decide⟩, by decide⟩
  obtain rfl := hu _ hl
  have hk := hm.mpr ⟨Utf8.encode "x", by decide, by decide⟩
  refine ⟨hk, ?_⟩
  rw [← hk]
  exact hd (by decide) (by decide) _ _ (.dotted .nothing)

example : infer (Path.ofText "dir/.rs") = .cHeader ∧ infer (Path.ofText "x.rs/..") = .cHeader ∧
    infer (Path.ofText "..rs") = .rustModule := by decide

end
end Artifact.Kind
end HandlerRegistry
