import HandlerRegistry.Proofs.FileTree.Entry
import Mathlib.Data.List.Lex
import Mathlib.Data.List.Nodup

/-! # The entries of a directory and their paths

A directory lists each of its entries once (`mem_childrenOf`, `nodup_childrenOf`). The path of the
directory joined with the name of an entry names that entry (`entryPlace_join`), and leads to it
unless it is a link (`isDirectory_join`). Of two such paths one comes after the other
(`comesAfter_join`). -/

namespace HandlerRegistry
set_option autoImplicit false

/-! ## What a directory lists -/

namespace FileTree

theorem childName?_eq_some_iff {directory place : Place} {name : Name} :
    childName? directory place = some name ↔ place = name :: directory := by
  cases place with
  | nil => simp [childName?]
  | cons first above =>
    by_cases h : above = directory
    · simp [childName?, h]
    · simp [childName?, h]

theorem childrenOf_eq (tree : FileTree) (directory : Place) :
    tree.childrenOf directory = (tree.entries.map Prod.fst).filterMap (childName? directory) := by
  rw [List.filterMap_map]
  rfl

theorem mem_childrenOf {tree : FileTree} {directory : Place} {name : Name} :
    name ∈ tree.childrenOf directory ↔ (tree.lookup (name :: directory)).isSome := by
  rw [lookup, Keyed.lookup_isSome_iff, childrenOf_eq, List.mem_filterMap]
  constructor
  · rintro ⟨place, hp, hn⟩
    rwa [childName?_eq_some_iff.mp hn] at hp
  · intro hp
    exact ⟨_, hp, childName?_eq_some_iff.mpr rfl⟩

theorem nodup_childrenOf (tree : FileTree) (directory : Place) :
    (tree.childrenOf directory).Nodup := by
  rw [childrenOf_eq]
  refine tree.distinct.filterMap ?_
  intro a b name ha hb
  rw [childName?_eq_some_iff.mp ha, childName?_eq_some_iff.mp hb]

end FileTree

/-! ## Joined paths -/

namespace Name

theorem slash_not_mem (name : Name) : slash ∉ name.bytes := by
  have h := name.admitted
  simp only [Name.admits, Bool.and_eq_true, Bool.not_eq_true'] at h
  intro hm
  rw [List.contains_iff_mem.mpr hm] at h
  exact Bool.noConfusion h.1.1.2

theorem zero_not_mem (name : Name) : 0 ∉ name.bytes := by
  have h := name.admitted
  simp only [Name.admits, Bool.and_eq_true, Bool.not_eq_true'] at h
  intro hm
  rw [List.contains_iff_mem.mpr hm] at h
  exact Bool.noConfusion h.1.2

theorem eq_of_bytes {a b : Name} (h : a.bytes = b.bytes) : a = b := by
  cases a
  cases b
  cases h
  rfl

end Name

namespace Path
variable {path : Path}

theorem join_cases (path : Path) (name : Name) :
    ∃ between, (path.join name).bytes = path.bytes ++ (between ++ name.bytes) ∧
      (between = [] ∨ between = [slash]) := by
  rw [join]
  split
  · exact ⟨[], rfl, .inl rfl⟩
  · exact ⟨[slash], rfl, .inr rfl⟩

theorem join_bytes_ne_nil (hb : path.bytes ≠ []) (name : Name) : (path.join name).bytes ≠ [] := by
  obtain ⟨between, hj, -⟩ := path.join_cases name
  rw [hj]
  exact List.append_ne_nil_of_left_ne_nil hb _

theorem join_injective {a b : Name} (h : path.join a = path.join b) : a = b := by
  rw [join, join] at h
  split at h
  · exact Name.eq_of_bytes (List.append_cancel_left (Path.mk.inj h))
  · exact Name.eq_of_bytes (List.cons.inj (List.append_cancel_left (Path.mk.inj h))).2

/-- The last segment of a joined path is the name; an empty last segment before it is dropped. -/
theorem segments_join (hb : path.bytes ≠ []) (name : Name) :
    ∃ above, (path.join name).segments = above ++ [name.bytes] ∧
      (path.segments = above ∨ path.segments = above ++ [[]]) := by
  have hs : name.bytes.splitOn slash = [name.bytes] :=
    List.splitOn_eq_singleton name.slash_not_mem
  rw [join, segments, segments]
  by_cases hl : path.bytes.getLast? = some slash
  · obtain ⟨before, hp⟩ := List.getLast?_eq_some_iff.mp hl
    rw [if_pos (.inr hl), hp, List.append_assoc, List.singleton_append,
      List.splitOn_append_cons_self, List.splitOn_append_cons_self, hs, List.splitOn_nil]
    exact ⟨_, rfl, .inr rfl⟩
  · rw [if_neg (not_or.mpr ⟨hb, hl⟩), List.splitOn_append_cons_self, hs]
    exact ⟨_, rfl, .inl rfl⟩

theorem isAbsolute_join (hb : path.bytes ≠ []) (name : Name) :
    (path.join name).isAbsolute = path.isAbsolute := by
  obtain ⟨first, rest, hp⟩ := List.exists_cons_of_ne_nil hb
  rw [join]
  split <;> rw [isAbsolute, isAbsolute, hp] <;> rfl

theorem hasNul_eq_false_iff : path.hasNul = false ↔ 0 ∉ path.bytes := by
  rw [hasNul, ← Bool.not_eq_true, List.contains_iff_mem]

theorem hasNul_join (hn : path.hasNul = false) (name : Name) :
    (path.join name).hasNul = false := by
  obtain ⟨between, hj, hb⟩ := path.join_cases name
  rw [hasNul_eq_false_iff] at hn ⊢
  rw [hj, List.mem_append, List.mem_append]
  rintro (hm | hm | hm)
  · exact hn hm
  · obtain rfl | rfl := hb
    · cases hm
    · exact absurd hm (by decide)
  · exact name.zero_not_mem hm

theorem getLast?_components_join (path : Path) (name : Name) :
    (path.join name).components.getLast? = some (.named name.bytes) := by
  by_cases hb : path.bytes = []
  · have hs : (path.join name).segments = [] ++ [name.bytes] := by
      rw [join, if_pos (.inl hb), segments, hb]
      exact List.splitOn_eq_singleton name.slash_not_mem
    exact getLast?_components hs
  · obtain ⟨above, hs, -⟩ := segments_join hb name
    exact getLast?_components hs

/-! ### The order of joined paths -/

theorem Component.key_injective : Function.Injective Component.key := by
  intro a b h
  cases a with
  | root => cases b <;> first | rfl | cases h
  | here => cases b <;> first | rfl | cases h
  | above => cases b <;> first | rfl | cases h
  | named bytes =>
    cases b with
    | root => cases h
    | here => cases h
    | above => cases h
    | named other =>
      have hb := List.map_injective_iff.mpr (fun _ _ => UInt8.toNat_inj.mp) (List.cons.inj h).2
      rw [hb]

/-- Of the paths of two entries of a directory, exactly one comes after the other. -/
theorem comesAfter_join (path : Path) {a b : Name} (h : a ≠ b) :
    (path.join a).comesAfter (path.join b) = !(path.join b).comesAfter (path.join a) := by
  have hk : (path.join a).components.map Component.key ≠
      (path.join b).components.map Component.key := by
    intro he
    have hl := congrArg List.getLast? (List.map_injective_iff.mpr Component.key_injective he)
    rw [getLast?_components_join, getLast?_components_join] at hl
    exact h (Name.eq_of_bytes (Component.named.inj (Option.some.inj hl)))
  rw [comesAfter, comesAfter]
  obtain hl | hl := lt_or_gt_of_ne hk
  · simp [hl, lt_asymm hl]
  · simp [hl, lt_asymm hl]

end Path

namespace FileTree
variable {tree : FileTree} {path : Path} {place : Place} {name : Name}

theorem pathFault_join (hf : pathFault path = none)
    (short : (path.join name).isTooLong = false) : pathFault (path.join name) = none := by
  have hn : path.hasNul = false := by
    cases h : path.hasNul with
    | false => rfl
    | true => simp [pathFault, h] at hf
  have hb := Path.join_bytes_ne_nil (bytes_ne_nil hf) name
  rw [pathFault, Path.hasNul_join hn, if_neg Bool.false_ne_true, if_neg hb, short,
    if_neg Bool.false_ne_true]

theorem isDirectory_of_isTooLong (long : path.isTooLong = true) :
    tree.isDirectory path = false := by
  obtain ⟨cause, hc⟩ : ∃ cause, pathFault path = some cause := by
    rw [pathFault, long, if_pos rfl]
    split_ifs <;> exact ⟨_, rfl⟩
  rw [isDirectory, resolve, walkPath, hc]

/-- An entry of a listed directory is the one that its path below that directory names. -/
theorem entryPlace_join (listed : tree.resolveDirectory path = .ok place)
    (short : (path.join name).isTooLong = false) :
    tree.entryPlace (path.join name) = .ok (name :: place) := by
  obtain ⟨hr, hd⟩ := resolveDirectory_eq_ok_iff.mp listed
  have hf := pathFault_of_walkPath hr
  have hb := bytes_ne_nil hf
  have hne : name.bytes ≠ [] := fun e =>
    Path.isVoid_eq_false_iff.mp (Path.isVoid_name name) (.inl e)
  obtain ⟨above, hs, ha⟩ := Path.segments_join hb name
  have hp : tree.parentPlace (path.join name) = .ok place := by
    rw [parentPlace, splitEntry_eq hs hne, walkPath, pathFault_join hf short, startOf,
      Path.isAbsolute_join hb, ← startOf]
    rw [resolve, walkPath, hf, Path.steps] at hr
    obtain he | he := ha
    · rw [he] at hr
      exact walk_append_stay_eq_ok_iff.mpr ⟨hr, hd⟩
    · rw [he, List.map_append] at hr
      exact hr
  rw [entryPlace_eq_map hs, hp]
  rfl

/-- An entry that is no link is what its path leads to. -/
theorem isDirectory_join {node : Node} (listed : tree.resolveDirectory path = .ok place)
    (short : (path.join name).isTooLong = false)
    (entry : tree.lookup (name :: place) = some node) (plain : ∀ target, node ≠ .link target) :
    tree.isDirectory (path.join name) = (node == .directory) := by
  have hs : (path.join name).bytes.getLast? ≠ some slash := by
    intro hl
    obtain ⟨between, hj, -⟩ := path.join_cases name
    have hne : name.bytes ≠ [] := fun e =>
      Path.isVoid_eq_false_iff.mp (Path.isVoid_name name) (.inl e)
    rw [hj, ← List.append_assoc, List.getLast?_append_of_ne_nil _ hne] at hl
    exact name.slash_not_mem (List.mem_of_getLast? hl)
  rw [isDirectory, resolve_eq_of_entryPlace (entryPlace_join listed short) hs entry plain]
  simp only [isDirectoryAt, entry, List.isEmpty_cons, Bool.false_or]
  cases node <;> rfl

end FileTree
end HandlerRegistry
