import HandlerRegistry.Discovery
import HandlerRegistry.Proofs.FileTree.Children
import HandlerRegistry.Proofs.Identifier
import Mathlib.Data.List.Perm.Basic

/-! # The sorted list of handlers

What a successful collection holds, and when it succeeds. `insertSource` keeps the list sorted and
adds one handler or fails on an identifier that is already there; `collect` does so for the handlers
`sourcesOf` of a list of names, in any order of them. -/

namespace HandlerRegistry
set_option autoImplicit false

/-! ## One handler added -/

namespace Discovery

/-- The handlers are in strictly increasing order of their identifiers. -/
def Sorted (handlers : List HandlerSource) : Prop := handlers.Pairwise fun a b => a.id.Before b.id

theorem Sorted.nodup_ids {handlers : List HandlerSource} (h : Sorted handlers) :
    (handlers.map HandlerSource.id).Nodup := by
  rw [List.Nodup, List.pairwise_map]
  exact h.imp Identifier.Before.ne

theorem Sorted.cons {first : HandlerSource} {rest : List HandlerSource} (sorted : Sorted rest)
    (h : ∀ source ∈ rest, first.id.Before source.id) : Sorted (first :: rest) :=
  List.pairwise_cons.mpr ⟨h, sorted⟩

/-- An insertion adds the handler and keeps the order. It fails only on an identifier that is
already there, and then names both entries. -/
theorem insertSource_cases (new : HandlerSource) {found : List HandlerSource}
    (sorted : Sorted found) :
    (∃ result, insertSource new found = .ok result ∧ result.Perm (new :: found) ∧
        Sorted result) ∨
      ∃ old ∈ found, old.id = new.id ∧
        insertSource new found = .error (duplicate old.id old.path new.path) := by
  induction found with
  | nil => exact .inl ⟨[new], rfl, List.Perm.refl _, List.pairwise_singleton _ new⟩
  | cons old rest ih =>
    obtain ⟨first, later⟩ := List.pairwise_cons.mp sorted
    rw [insertSource]
    cases hc : new.id.compare old.id with
    | lt =>
      have hb := Identifier.compare_eq_lt_iff.mp hc
      refine .inl ⟨new :: old :: rest, rfl, List.Perm.refl _, sorted.cons ?_⟩
      intro source hs
      obtain rfl | hs := List.mem_cons.mp hs
      · exact hb
      · exact hb.trans (first source hs)
    | eq => exact .inr ⟨old, List.mem_cons_self, (Identifier.compare_eq_eq_iff.mp hc).symm, rfl⟩
    | gt =>
      -- What follows the first handler is the rest and the new one, in whatever order.
      have hb := Identifier.compare_eq_gt_iff.mp hc
      obtain ⟨inserted, hr, hp, hs⟩ | ⟨twin, ht, hid, hr⟩ := ih later
      · have hswap : (old :: inserted).Perm (new :: old :: rest) :=
          (hp.cons old).trans (List.Perm.swap new old rest)
        refine .inl ⟨old :: inserted, by rw [hr], hswap, hs.cons ?_⟩
        intro source hm
        obtain rfl | hm := List.mem_cons.mp (hp.mem_iff.mp hm)
        · exact hb
        · exact first source hm
      · exact .inr ⟨twin, List.mem_cons_of_mem old ht, hid, by rw [hr]⟩

/-! ## All handlers of a list of names -/

/-- The handler of an entry, if the entry is one. -/
def sourceOf? (tree : FileTree) (directory : Path) (name : Name) : Option HandlerSource :=
  match identify tree (directory.join name) name with
  | .ok (some id) => some ⟨id, directory.join name⟩
  | _ => none

/-- The handlers of the entries of some names, in their order. -/
def sourcesOf (tree : FileTree) (directory : Path) (names : List Name) : List HandlerSource :=
  names.filterMap (sourceOf? tree directory)

theorem sourceOf?_eq_some_iff {tree : FileTree} {directory : Path} {name : Name}
    {source : HandlerSource} : sourceOf? tree directory name = some source ↔
      identify tree (directory.join name) name = .ok (some source.id) ∧
        source.path = directory.join name := by
  unfold sourceOf?
  split
  · rename_i id hi
    rw [hi, Option.some.injEq]
    constructor
    · rintro rfl
      exact ⟨rfl, rfl⟩
    · rintro ⟨hid, hp⟩
      cases source
      cases hid
      cases hp
      rfl
  · rename_i hn
    constructor
    · intro h
      cases h
    · rintro ⟨h, -⟩
      exact absurd h (hn source.id)

variable {tree : FileTree} {directory : Path}

/-- The handlers found so far, with that of one more entry. -/
def addEntry (tree : FileTree) (directory : Path) (found : List HandlerSource) (name : Name) :
    Except Failure (List HandlerSource) :=
  match identify tree (directory.join name) name with
  | .error failure => .error failure
  | .ok none => .ok found
  | .ok (some id) => insertSource ⟨id, directory.join name⟩ found

/-- A collection takes one entry after the other. -/
theorem collect_cons (found : List HandlerSource) (name : Name) (rest : List Name) :
    collect tree directory found (name :: rest) =
      (addEntry tree directory found name).bind fun found =>
        collect tree directory found rest := by
  rw [collect, addEntry]
  cases identify tree (directory.join name) name with
  | error failure => rfl
  | ok id? =>
    cases id? with
    | none => rfl
    | some id =>
      simp only
      cases insertSource ⟨id, directory.join name⟩ found <;> rfl

/-- What a successful collection holds. -/
theorem collect_ok {found handlers : List HandlerSource} {names : List Name}
    (sorted : Sorted found) (h : collect tree directory found names = .ok handlers) :
    (∀ name ∈ names, ∃ id?, identify tree (directory.join name) name = .ok id?) ∧
      Sorted handlers ∧ handlers.Perm (sourcesOf tree directory names ++ found) := by
  induction names generalizing found with
  | nil =>
    cases h
    exact ⟨fun name hn => (nomatch hn), sorted, List.Perm.refl _⟩
  | cons name rest ih =>
    rw [collect] at h
    rw [List.forall_mem_cons, sourcesOf, List.filterMap_cons, sourceOf?]
    cases hi : identify tree (directory.join name) name with
    | error failure =>
      rw [hi] at h
      cases h
    | ok id? =>
      rw [hi] at h
      cases id? with
      | none =>
        obtain ⟨hall, hs, hp⟩ := ih sorted h
        exact ⟨⟨⟨none, rfl⟩, hall⟩, hs, hp⟩
      | some id =>
        obtain ⟨inserted, hr, hperm, hs⟩ | ⟨old, -, -, hr⟩ :=
          insertSource_cases ⟨id, directory.join name⟩ sorted
        · simp only [hr] at h
          obtain ⟨hall, hs, hp⟩ := ih hs h
          refine ⟨⟨⟨some id, rfl⟩, hall⟩, hs, ?_⟩
          exact (hp.trans (hperm.append_left _)).trans List.perm_middle
        · simp only [hr] at h
          cases h

/-- A collection succeeds if every entry has an answer and no identifier comes twice. -/
theorem exists_collect {found : List HandlerSource} {names : List Name} (sorted : Sorted found)
    (hall : ∀ name ∈ names, ∃ id?, identify tree (directory.join name) name = .ok id?)
    (distinct : ((sourcesOf tree directory names ++ found).map HandlerSource.id).Nodup) :
    ∃ handlers, collect tree directory found names = .ok handlers := by
  induction names generalizing found with
  | nil => exact ⟨found, rfl⟩
  | cons name rest ih =>
    obtain ⟨⟨id?, hi⟩, hrest⟩ := List.forall_mem_cons.mp hall
    rw [sourcesOf, List.filterMap_cons, sourceOf?, hi] at distinct
    cases id? with
    | none =>
      simp only [collect, hi]
      exact ih sorted hrest distinct
    | some id =>
      obtain ⟨inserted, hr, hp, hs⟩ | ⟨old, ho, hid, -⟩ :=
        insertSource_cases ⟨id, directory.join name⟩ sorted
      · simp only [collect, hi, hr]
        refine ih hs hrest ?_
        have hperm := (hp.append_left (sourcesOf tree directory rest)).trans List.perm_middle
        exact (hperm.map HandlerSource.id).nodup_iff.mpr distinct
      · have hn := (List.nodup_cons.mp distinct).1
        have hm : old ∈ sourcesOf tree directory rest ++ found := List.mem_append_right _ ho
        exact absurd (hid ▸ List.mem_map_of_mem hm) hn

theorem discover_eq {place : Place} (listed : tree.resolveDirectory directory = .ok place) :
    discover tree directory = collect tree directory [] (tree.childrenOf place) := by
  rw [discover, FileTree.listDirectory, listed]
  rfl

end Discovery

/-- The handlers of a directory: one for each entry that is one, in the order of identifiers. -/
theorem discover_ok {tree : FileTree} {directory : Path} {handlers : List HandlerSource}
    (h : discover tree directory = .ok handlers) :
    ∃ place, tree.resolveDirectory directory = .ok place ∧
      (∀ name ∈ tree.childrenOf place,
        ∃ id?, Discovery.identify tree (directory.join name) name = .ok id?) ∧
      Discovery.Sorted handlers ∧
      handlers.Perm (Discovery.sourcesOf tree directory (tree.childrenOf place)) := by
  cases hr : tree.resolveDirectory directory with
  | error cause =>
    rw [discover, FileTree.listDirectory, hr] at h
    cases h
  | ok place =>
    rw [Discovery.discover_eq hr] at h
    obtain ⟨hall, hs, hp⟩ := Discovery.collect_ok List.Pairwise.nil h
    rw [List.append_nil] at hp
    exact ⟨place, rfl, hall, hs, hp⟩

end HandlerRegistry
