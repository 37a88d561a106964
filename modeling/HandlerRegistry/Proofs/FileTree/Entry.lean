import HandlerRegistry.Proofs.FileTree.Walk

/-! # The entry that a path names, and the directory above it

The directory above a path is found twice: in the text of the path, where `Path.directory` drops the
last component and the empty segments and dots around it, and in the tree, where `parentPlace` walks
all segments but the last. Both lead to the same place (`parentPlace_eq_ok_iff`), so the entry that
a path names lies in the directory of its text, under the name that is its last component
(`exists_name_of_entryPlace`). -/

namespace HandlerRegistry
set_option autoImplicit false

/-! ## Segments -/

theorem not_mem_of_mem_splitOn {α : Type} [BEq α] [LawfulBEq α] {mark : α} {l part : List α}
    (h : part ∈ l.splitOn mark) : mark ∉ part := by
  induction l generalizing part with
  | nil =>
    rw [List.splitOn_nil, List.mem_singleton] at h
    subst h
    exact List.not_mem_nil
  | cons x l ih =>
    rw [List.splitOn_cons_eq_if_modifyHead] at h
    by_cases hx : x == mark
    · rw [if_pos hx, List.mem_cons] at h
      obtain rfl | hm := h
      · exact List.not_mem_nil
      · exact ih hm
    · rw [if_neg hx] at h
      obtain ⟨first, rest, he⟩ := List.exists_cons_of_ne_nil (List.splitOn_ne_nil mark l)
      rw [he, List.modifyHead_cons, List.mem_cons] at h
      obtain rfl | hm := h
      · refine List.not_mem_cons_of_ne_of_not_mem (fun e => hx (beq_iff_eq.mpr e.symm)) (ih ?_)
        rw [he]
        exact List.mem_cons_self
      · refine ih ?_
        rw [he]
        exact List.mem_cons_of_mem _ hm

namespace Path

theorem slash_not_mem {path : Path} {segment : List UInt8} (h : segment ∈ path.segments) :
    slash ∉ segment :=
  not_mem_of_mem_splitOn h

theorem segments_intercalate {segments : List (List UInt8)}
    (h : ∀ segment ∈ segments, slash ∉ segment) (hne : segments ≠ []) :
    (Path.mk ([slash].intercalate segments)).segments = segments :=
  List.splitOn_intercalate slash h hne

/-- A path is absolute if it begins with an empty segment that is not the only one. -/
theorem isAbsolute_iff {path : Path} {first : List UInt8} {rest : List (List UInt8)}
    (h : path.segments = first :: rest) :
    path.isAbsolute = true ↔ first = [] ∧ rest ≠ [] := by
  have hb : path.bytes = [slash].intercalate (first :: rest) := by
    rw [← h]
    exact (List.intercalate_splitOn slash).symm
  have hf : slash ∉ first := slash_not_mem (h ▸ List.mem_cons_self)
  rw [isAbsolute, hb]
  cases rest with
  | nil =>
    cases first with
    | nil => simp [List.intercalate]
    | cons x first =>
      have hx : ¬ x = slash := fun e => hf (e ▸ List.mem_cons_self)
      simp [List.intercalate, hx]
  | cons second rest =>
    cases first with
    | nil => simp [List.intercalate_cons_cons]
    | cons x first =>
      have hx : ¬ x = slash := fun e => hf (e ▸ List.mem_cons_self)
      simp [List.intercalate_cons_cons, hx]

/-- The last segment is the whole path, or what follows the last slash. -/
theorem segments_cases (path : Path) :
    path.segments = [path.bytes] ∨ ∃ above last, path.bytes = above ++ slash :: last ∧
      path.segments = (Path.mk above).segments ++ [last] := by
  cases hl : Text.splitLast slash path.bytes with
  | none => exact .inl (List.splitOn_eq_singleton (Text.splitLast_eq_none.mp hl))
  | some parts =>
    obtain ⟨above, last⟩ := parts
    obtain ⟨he, hn⟩ := Text.splitLast_eq_some.mp hl
    refine .inr ⟨above, last, he, ?_⟩
    rw [segments, he, List.splitOn_append_cons_self, List.splitOn_eq_singleton hn, segments]

/-- The segments of a path that does not end in a slash: those above, and a last one. -/
theorem exists_segments_eq {path : Path} (hb : path.bytes ≠ [])
    (hs : path.bytes.getLast? ≠ some slash) :
    ∃ above last, path.segments = above ++ [last] ∧ last ≠ [] := by
  obtain he | ⟨above, last, hp, he⟩ := path.segments_cases
  · exact ⟨[], path.bytes, he, hb⟩
  · refine ⟨_, last, he, ?_⟩
    rintro rfl
    exact hs (by rw [hp, List.getLast?_concat])

/-! ## The directory of a path as a text -/

theorem isVoid_iff {segment : List UInt8} :
    isVoid segment = true ↔ segment = [] ∨ segment = [dot] := by
  simp [isVoid]

theorem ofSegment_of_isVoid {segment : List UInt8} (h : isVoid segment = true) :
    Step.ofSegment segment = .stay := by
  rw [Step.ofSegment, if_pos (isVoid_iff.mp h)]

theorem map_ofSegment_of_all_isVoid {segments : List (List UInt8)}
    (h : ∀ segment ∈ segments, isVoid segment = true) :
    segments.map Step.ofSegment = List.replicate segments.length .stay := by
  rw [List.eq_replicate_iff]
  refine ⟨List.length_map _, fun step hm => ?_⟩
  obtain ⟨segment, hs, rfl⟩ := List.mem_map.mp hm
  exact ofSegment_of_isVoid (h segment hs)

/-- The last segments that are no components can be set apart. -/
theorem exists_trailing_isVoid (segments : List (List UInt8)) :
    ∃ voids, (∀ segment ∈ voids, isVoid segment = true) ∧
      segments = (segments.reverse.dropWhile isVoid).reverse ++ voids := by
  refine ⟨(segments.reverse.takeWhile isVoid).reverse, fun segment hm => ?_, ?_⟩
  · exact List.all_eq_true.mp List.all_takeWhile segment (List.mem_reverse.mp hm)
  · rw [← List.reverse_append, List.takeWhile_append_dropWhile, List.reverse_reverse]

theorem directory_of_single {path : Path} {last : List UInt8} (h : path.segments = [last]) :
    path.directory = ⟨[dot]⟩ := by
  rw [directory, h]
  rfl

theorem directory_of_cons {path : Path} {first last : List UInt8} {rest : List (List UInt8)}
    (h : path.segments = first :: (rest ++ [last])) (hl : isVoid last = false) :
    path.directory =
      if first = [] ∧ (rest.reverse.dropWhile isVoid).reverse = [] then ⟨[slash]⟩
      else ⟨[slash].intercalate (first :: (rest.reverse.dropWhile isVoid).reverse)⟩ := by
  have hr : (rest ++ [last]).reverse.dropWhile isVoid = last :: rest.reverse := by
    rw [List.reverse_append, List.reverse_singleton, List.singleton_append,
      List.dropWhile_cons_of_neg (by simp [hl])]
  rw [directory, h]
  simp only [hr]

/-- The directory of a path, walked and stayed in, is all of the path but its last component. -/
theorem directory_steps {path : Path} {above : List (List UInt8)} {last : List UInt8}
    (h : path.segments = above ++ [last]) (hl : isVoid last = false) :
    (∃ count, above.map Step.ofSegment ++ [.stay] =
        path.directory.steps ++ List.replicate count .stay) ∧
      path.directory.isAbsolute = path.isAbsolute := by
  cases above with
  | nil =>
    rw [directory_of_single h]
    refine ⟨⟨0, by decide⟩, ?_⟩
    have ha := isAbsolute_iff h
    simp only [ne_eq, not_true_eq_false, and_false, iff_false, Bool.not_eq_true] at ha
    rw [ha]
    decide
  | cons first rest =>
    obtain ⟨voids, hv, he⟩ := exists_trailing_isVoid rest
    have hd := directory_of_cons h hl
    generalize (rest.reverse.dropWhile isVoid).reverse = kept at he hd
    have ha := isAbsolute_iff h
    rw [he, List.map_cons, List.map_append, map_ofSegment_of_all_isVoid hv, hd]
    by_cases hk : first = [] ∧ kept = []
    · obtain ⟨rfl, rfl⟩ := hk
      simp only [and_self, if_true]
      refine ⟨⟨voids.length, ?_⟩, ?_⟩
      · have hs : (Path.mk [slash]).steps = [.stay, .stay] := by decide
        have h0 : Step.ofSegment [] = .stay := by decide
        rw [hs, h0, List.map_nil, List.nil_append, List.cons_append, ← List.replicate_succ',
          ← List.replicate_succ]
        rfl
      · rw [ha.mpr ⟨rfl, by simp⟩]
        decide
    · simp only [if_neg hk]
      have hs : (Path.mk ([slash].intercalate (first :: kept))).segments = first :: kept := by
        refine segments_intercalate (fun segment hm => ?_) (by simp)
        have hp : segment ∈ path.segments := by
          rw [h, he]
          exact List.mem_append_left _ (List.mem_append_left _ hm)
        exact slash_not_mem hp
      refine ⟨⟨voids.length + 1, ?_⟩, ?_⟩
      · rw [steps, hs, List.replicate_succ']
        simp
      · rw [Bool.eq_iff_iff, ha, isAbsolute_iff hs]
        have hr : rest ++ [last] ≠ [] := by simp
        exact ⟨fun hf => ⟨hf.1, hr⟩, fun hf => ⟨hf.1, fun e => hk ⟨hf.1, e⟩⟩⟩

/-! ## The last component -/

theorem ofBytes?_eq_some_iff {bytes : List UInt8} {name : Name} :
    Name.ofBytes? bytes = some name ↔ bytes = name.bytes := by
  rw [Name.ofBytes?]
  constructor
  · intro h
    split at h
    · cases h
      rfl
    · cases h
  · rintro rfl
    rw [dif_pos name.admitted]

theorem isVoid_eq_false_iff {segment : List UInt8} :
    isVoid segment = false ↔ ¬ (segment = [] ∨ segment = [dot]) := by
  rw [← isVoid_iff, Bool.not_eq_true]

theorem isVoid_name (name : Name) : isVoid name.bytes = false := by
  have h := name.admitted
  simp only [Name.admits, Bool.and_eq_true, bne_iff_ne, ne_eq] at h
  simp [isVoid, h]

theorem name_ne_dots (name : Name) : name.bytes ≠ [dot, dot] := by
  have h := name.admitted
  simp only [Name.admits, Bool.and_eq_true, bne_iff_ne, ne_eq] at h
  exact h.1.1.1.2

theorem ofSegment_eq_enter_iff {segment : List UInt8} {name : Name} :
    Step.ofSegment segment = .enter name ↔ segment = name.bytes := by
  rw [← ofBytes?_eq_some_iff, Step.ofSegment]
  by_cases hv : segment = [] ∨ segment = [dot]
  · rw [if_pos hv, ofBytes?_eq_some_iff]
    refine ⟨fun h => (nomatch h), fun h => absurd hv ?_⟩
    rw [h]
    exact isVoid_eq_false_iff.mp (isVoid_name name)
  rw [if_neg hv]
  by_cases hd : segment = [dot, dot]
  · rw [if_pos hd, ofBytes?_eq_some_iff]
    exact ⟨fun h => (nomatch h), fun h => absurd (h ▸ hd) (name_ne_dots name)⟩
  · rw [if_neg hd]
    cases Name.ofBytes? segment with
    | none => exact ⟨fun h => (nomatch h), fun h => (nomatch h)⟩
    | some found => simp only [Step.enter.injEq, Option.some.injEq]

/-- The last segment makes the last component, if it makes one. -/
theorem getLast?_components_of_segments {path : Path} {above : List (List UInt8)}
    {last : List UInt8} (h : path.segments = above ++ [last]) (hv : isVoid last = false) :
    path.components.getLast? = Component.ofSegment last := by
  have hn := isVoid_eq_false_iff.mp hv
  obtain ⟨component, hc⟩ : ∃ component, Component.ofSegment last = some component := by
    rw [Component.ofSegment, if_neg hn]
    split
    · exact ⟨_, rfl⟩
    · exact ⟨_, rfl⟩
  obtain ⟨hb, hs⟩ := not_or.mp hn
  cases above with
  | nil =>
    rw [components, h]
    simp [hb, hs, hc]
  | cons first rest =>
    rw [components, h]
    simp only [List.cons_append, List.filterMap_append, List.filterMap_cons, hc,
      List.filterMap_nil]
    rw [← List.append_assoc, List.getLast?_concat]

theorem getLast?_components {path : Path} {above : List (List UInt8)} {name : Name}
    (h : path.segments = above ++ [name.bytes]) :
    path.components.getLast? = some (.named name.bytes) := by
  have hv := isVoid_name name
  rw [getLast?_components_of_segments h hv, Component.ofSegment,
    if_neg (isVoid_eq_false_iff.mp hv), if_neg (name_ne_dots name)]

end Path

namespace FileTree

/-! ## The directory above, in the text and in the tree -/

theorem resolveDirectory_eq_ok_iff {tree : FileTree} {path : Path} {place : Place} :
    tree.resolveDirectory path = .ok place ↔
      tree.resolve path = .ok place ∧ tree.isDirectoryAt place = true := by
  rw [resolveDirectory]
  cases tree.resolve path with
  | error cause => simp [bind, Except.bind]
  | ok reached => exact ite_isDirectoryAt_eq_ok_iff

theorem pathFault_of_walkPath {tree : FileTree} {path : Path} {steps : List Path.Step}
    {place : Place} (h : tree.walkPath path steps = .ok place) : pathFault path = none := by
  rw [walkPath] at h
  cases hf : pathFault path with
  | none => rfl
  | some cause =>
    rw [hf] at h
    cases h

theorem bytes_ne_nil {path : Path} (h : pathFault path = none) : path.bytes ≠ [] := by
  intro e
  rw [pathFault, if_neg (by simp [Path.hasNul, e]), if_pos e] at h
  cases h

theorem splitEntry_eq {path : Path} {above : List (List UInt8)} {last : List UInt8}
    (h : path.segments = above ++ [last]) (hl : last ≠ []) :
    splitEntry path = (above, last) := by
  rw [splitEntry, h, List.reverse_append, List.reverse_singleton, List.singleton_append,
    List.dropWhile_cons_of_neg (by simpa using hl)]
  simp only [List.reverse_reverse]

theorem entryPlace_eq_map {tree : FileTree} {path : Path} {above : List (List UInt8)}
    {name : Name} (h : path.segments = above ++ [name.bytes]) :
    tree.entryPlace path = (tree.parentPlace path).map (name :: ·) := by
  have hb : name.bytes ≠ [] := fun e =>
    Path.isVoid_eq_false_iff.mp (Path.isVoid_name name) (Or.inl e)
  rw [entryPlace, splitEntry_eq h hb]
  simp only [Path.ofSegment_eq_enter_iff.mpr rfl]
  rfl

/-- The directory walked to from the text of a path is the one walked to from its segments. -/
theorem parentPlace_eq_ok_iff {tree : FileTree} {path : Path} {above : List (List UInt8)}
    {name : Name} (h : path.segments = above ++ [name.bytes]) (hf : pathFault path = none)
    (hd : pathFault path.directory = none) (place : Place) :
    tree.parentPlace path = .ok place ↔ tree.resolveDirectory path.directory = .ok place := by
  have hv := Path.isVoid_name name
  obtain ⟨⟨count, hs⟩, ha⟩ := Path.directory_steps h hv
  have hb : name.bytes ≠ [] := fun e => Path.isVoid_eq_false_iff.mp hv (Or.inl e)
  rw [resolveDirectory_eq_ok_iff, parentPlace, splitEntry_eq h hb, resolve, walkPath, walkPath]
  simp only [hf, hd, startOf, ha]
  -- Both walks end in a directory, so the steps that stay do not tell them apart.
  constructor
  · intro hw
    have hp := (walk_append_stay_eq_ok_iff.mp hw).2
    rw [hs] at hw
    exact ⟨(walk_append_stays hp count).mp hw, hp⟩
  · rintro ⟨hw, hp⟩
    rw [hs]
    exact (walk_append_stays hp count).mpr hw

/-! ## The entry -/

/-- An entry named without a slash at the end is named by the last segment. -/
theorem exists_name_of_entryPlace {tree : FileTree} {path : Path} {place : Place}
    (h : tree.entryPlace path = .ok place) (hs : path.bytes.getLast? ≠ some slash) :
    pathFault path = none ∧
      ∃ above name parent, path.segments = above ++ [Name.bytes name] ∧
        tree.parentPlace path = .ok parent ∧ place = name :: parent := by
  cases hp : tree.parentPlace path with
  | error cause =>
    rw [entryPlace, hp] at h
    cases h
  | ok parent =>
    have hf := pathFault_of_walkPath hp
    obtain ⟨above, last, he, hb⟩ := Path.exists_segments_eq (bytes_ne_nil hf) hs
    rw [entryPlace, hp, splitEntry_eq he hb] at h
    simp only [bind, Except.bind] at h
    cases hn : Path.Step.ofSegment last with
    | stay => simp [hn] at h
    | up => simp [hn] at h
    | overlong => simp [hn] at h
    | enter name =>
      simp only [hn, Except.ok.injEq] at h
      exact ⟨hf, above, name, parent, Path.ofSegment_eq_enter_iff.mp hn ▸ he, rfl, h.symm⟩

/-- Once an entry is no link, its path leads to it. -/
theorem resolve_eq_of_entryPlace {tree : FileTree} {path : Path} {place : Place} {node : Node}
    (h : tree.entryPlace path = .ok place) (hs : path.bytes.getLast? ≠ some slash)
    (hn : tree.lookup place = some node) (hl : ∀ target, node ≠ .link target) :
    tree.resolve path = .ok place := by
  obtain ⟨hf, above, name, parent, he, hp, rfl⟩ := exists_name_of_entryPlace h hs
  have hb : name.bytes ≠ [] := fun e =>
    Path.isVoid_eq_false_iff.mp (Path.isVoid_name name) (Or.inl e)
  have hst : path.steps = above.map Path.Step.ofSegment ++ [.enter name] := by
    rw [Path.steps, he, List.map_append, List.map_singleton,
      Path.ofSegment_eq_enter_iff.mpr rfl]
  rw [parentPlace, splitEntry_eq he hb, walkPath, hf] at hp
  obtain ⟨hw, hd⟩ := walk_append_stay_eq_ok_iff.mp hp
  obtain ⟨left, -, ha⟩ := walk_append tree maxLinks (startOf tree.home path)
    (above.map Path.Step.ofSegment)
  rw [resolve, walkPath, hf, hst]
  simp only [ha, hw, Except.bind]
  rw [walk_enter hd hn hl, walk_nil]

/-- Where the directory of a path is the same in two trees, so is the entry that the path names. -/
theorem entryPlace_eq_of_directory {tree other : FileTree} {path : Path} {name : Name}
    {directory : Place} (h : tree.entryPlace path = .ok (name :: directory))
    (hs : path.bytes.getLast? ≠ some slash)
    (hd : other.resolveDirectory path.directory = .ok directory) :
    other.entryPlace path = .ok (name :: directory) := by
  obtain ⟨hf, above, last, parent, he, -, hc⟩ := exists_name_of_entryPlace h hs
  obtain ⟨rfl, rfl⟩ := List.cons.inj hc
  have hv := pathFault_of_walkPath (resolveDirectory_eq_ok_iff.mp hd).1
  rw [entryPlace_eq_map he, (parentPlace_eq_ok_iff he hf hv directory).mpr hd]
  rfl

end FileTree
end HandlerRegistry
