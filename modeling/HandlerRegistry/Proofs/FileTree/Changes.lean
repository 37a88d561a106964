import HandlerRegistry.Proofs.FileTree.Entry
import HandlerRegistry.Proofs.Keyed

/-! # Trees with one entry changed

An entry set twice is the one set last, and a new entry taken away again leaves nothing behind, not
even in the order of the entries. An entry whose name is mentioned nowhere changes no walk
(`agreeApart_put`), and so not what a path without that name leads to or names. -/

namespace HandlerRegistry
set_option autoImplicit false

namespace FileTree

theorem put_put (tree : FileTree) (place : Place) (a b : Node) :
    (tree.put place a).put place b = tree.put place b :=
  FileTree.ext (Keyed.set_set place b a tree.entries) rfl rfl

theorem lookup_eq_none_iff {tree : FileTree} {place : Place} :
    tree.lookup place = none ↔ place ∉ tree.entries.map Prod.fst :=
  Keyed.lookup_eq_none_iff place tree.entries

theorem erase_put {tree : FileTree} {place : Place} (h : tree.lookup place = none) (node : Node) :
    (tree.put place node).erase place = tree := by
  rw [lookup_eq_none_iff] at h
  refine FileTree.ext ?_ rfl rfl
  have hk : ∀ entry ∈ tree.entries, (entry.1 != place) = true := by
    intro entry hm
    rw [bne_iff_ne]
    rintro rfl
    exact h (List.mem_map_of_mem hm)
  simp only [erase, keep, put, Keyed.set_of_not_mem h]
  rw [List.filter_append, List.filter_eq_self.mpr hk]
  simp

theorem mem_of_lookup {tree : FileTree} {place : Place} {node : Node}
    (h : tree.lookup place = some node) : (place, node) ∈ tree.entries :=
  (Keyed.lookup_eq_some_iff place node tree.entries tree.distinct).mp h

/-! ## Entries that no walk meets -/

/-- An entry added under a name that neither the tree nor its links mention. -/
theorem agreeApart_put {tree : FileTree} {name : Name} (hh : name ∉ tree.home)
    (hl : ∀ place target, tree.lookup place = some (.link target) →
      Path.Step.enter name ∉ target.steps) (directory : Place) (node : Node) :
    AgreeApart name (tree.put (name :: directory) node) tree where
  home := rfl
  apart := hh
  lookup place hp := by
    rw [lookup_put, if_neg]
    rintro rfl
    exact hp List.mem_cons_self
  targets place target _ := hl place target

theorem splitEntry_subset (path : Path) :
    (∀ segment ∈ (splitEntry path).1, segment ∈ path.segments) ∧
      ((splitEntry path).2 = [] ∨ (splitEntry path).2 ∈ path.segments) := by
  have hs : ∀ segment ∈ path.segments.reverse.dropWhile List.isEmpty,
      segment ∈ path.segments := fun segment hm =>
    List.mem_reverse.mp ((List.dropWhile_sublist _).subset hm)
  rw [splitEntry]
  cases hd : path.segments.reverse.dropWhile List.isEmpty with
  | nil => exact ⟨fun segment hm => absurd hm List.not_mem_nil, Or.inl rfl⟩
  | cons last above =>
    rw [hd] at hs
    refine ⟨fun segment hm => hs segment (List.mem_cons_of_mem _ (List.mem_reverse.mp hm)), ?_⟩
    exact Or.inr (hs last List.mem_cons_self)

namespace AgreeApart
variable {name : Name} {a b : FileTree}

theorem entryPlace_together (h : AgreeApart name a b) {path : Path}
    (hs : Path.Step.enter name ∉ path.steps) :
    Together name (a.entryPlace path) (b.entryPlace path) := by
  obtain ⟨ha, hl⟩ := splitEntry_subset path
  have hw : Together name (a.parentPlace path) (b.parentPlace path) := by
    refine h.walkPath_together path ?_
    rw [List.mem_append, List.mem_map]
    rintro (⟨segment, hm, he⟩ | hm)
    · exact hs (List.mem_map.mpr ⟨segment, ha segment hm, he⟩)
    · simp at hm
  rw [entryPlace, entryPlace, hw.1]
  cases hp : b.parentPlace path with
  | error cause => exact Together.error cause
  | ok parent =>
    simp only [bind, Except.bind]
    cases hn : Path.Step.ofSegment (splitEntry path).2 with
    | stay => exact Together.error _
    | up => exact Together.error _
    | overlong => exact Together.error _
    | enter entered =>
      refine ⟨rfl, fun target ht => ?_⟩
      cases ht
      refine List.not_mem_cons_of_ne_of_not_mem (fun e => ?_) (hw.2 parent hp)
      obtain he | hm := hl
      · rw [he] at hn
        cases hn
      · exact hs (e ▸ List.mem_map.mpr ⟨_, hm, hn⟩)

end AgreeApart
end FileTree
end HandlerRegistry
