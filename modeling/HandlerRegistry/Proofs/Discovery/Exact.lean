import HandlerRegistry.Proofs.Discovery.Denotes
import Mathlib.Control.Monad.Basic

/-! # Discovery is exact

The handlers of a directory correspond one to one to its visible entries. Discovery fails only on a
visible entry whose name denotes no identifier, on two whose names denote the same one, or on a
hidden entry whose name is no text. -/

namespace HandlerRegistry.Discovery
set_option autoImplicit false

/-- A directory has a visible entry of some name. -/
def Visible (tree : FileTree) (place : Place) (name : Name) : Prop :=
  (tree.lookup (name :: place)).isSome ∧ name.isHidden = false

/-- A handler is the one that the entry of some name in a directory stands for. -/
def Represents (tree : FileTree) (directory : Path) (source : HandlerSource) (name : Name) : Prop :=
  Denotes (tree.isDirectory (directory.join name)) name source.id ∧
    source.path = directory.join name

variable {tree : FileTree} {directory : Path} {place : Place}

theorem mem_visible {name : Name} :
    name ∈ (tree.childrenOf place).filter (fun name => !name.isHidden) ↔
      Visible tree place name := by
  rw [List.mem_filter, FileTree.mem_childrenOf, Bool.not_eq_true']
  rfl

theorem sourceOf?_eq_some_iff_represents {name : Name} {source : HandlerSource} :
    sourceOf? tree directory name = some source ↔ Represents tree directory source name := by
  rw [sourceOf?_eq_some_iff, identify_eq_some_iff]
  rfl

/-! ## Entries and handlers, one to one -/

theorem sourcesOf_represents {names : List Name}
    (hall : ∀ name ∈ names, ∃ id?, identify tree (directory.join name) name = .ok id?) :
    List.Forall₂ (Represents tree directory) (sourcesOf tree directory names)
      (names.filter fun name => !name.isHidden) := by
  induction names with
  | nil => exact .nil
  | cons name rest ih =>
    obtain ⟨⟨id?, hi⟩, hrest⟩ := List.forall_mem_cons.mp hall
    rw [sourcesOf, List.filterMap_cons, List.filter_cons]
    cases id? with
    | none =>
      have hh := (identify_eq_none_iff.mp hi).1
      rw [sourceOf?, hi, hh]
      exact ih hrest
    | some id =>
      have hd := identify_eq_some_iff.mp hi
      rw [sourceOf?, hi, hd.isHidden]
      exact .cons ⟨hd, rfl⟩ (ih hrest)

/-- The handlers that discovery finds, in the order of the entries that they stand for. -/
theorem represents_of_discover {handlers : List HandlerSource}
    (listed : tree.resolveDirectory directory = .ok place)
    (h : discover tree directory = .ok handlers) :
    ∃ order : List Name, order.Nodup ∧ (∀ name, name ∈ order ↔ Visible tree place name) ∧
      List.Forall₂ (Represents tree directory) handlers order := by
  obtain ⟨found, hl, hall, -, hp⟩ := discover_ok h
  rw [listed] at hl
  obtain rfl := Except.ok.inj hl
  obtain ⟨order, hr, ho⟩ := List.perm_comp_forall₂ hp (sourcesOf_represents hall)
  refine ⟨order, ?_, fun name => ?_, hr⟩
  · exact ho.nodup_iff.mpr ((FileTree.nodup_childrenOf tree place).filter _)
  · rw [ho.mem_iff, mem_visible]

/-! ## When discovery succeeds -/

theorem exists_source_of_visible {handlers : List HandlerSource} {name : Name}
    (listed : tree.resolveDirectory directory = .ok place)
    (h : discover tree directory = .ok handlers) (hv : Visible tree place name) :
    ∃ source ∈ handlers, Represents tree directory source name := by
  obtain ⟨found, hl, hall, -, hp⟩ := discover_ok h
  rw [listed] at hl
  obtain rfl := Except.ok.inj hl
  have hm := FileTree.mem_childrenOf.mpr hv.1
  obtain ⟨id?, hi⟩ := hall name hm
  cases id? with
  | none =>
    exact absurd hv.2 (ne_false_of_eq_true (identify_eq_none_iff.mp hi).1)
  | some id =>
    have hs : sourceOf? tree directory name = some ⟨id, directory.join name⟩ :=
      sourceOf?_eq_some_iff.mpr ⟨hi, rfl⟩
    exact ⟨⟨id, directory.join name⟩, hp.mem_iff.mpr (List.mem_filterMap.mpr ⟨name, hm, hs⟩),
      identify_eq_some_iff.mp hi, rfl⟩

/-- Where discovery succeeds, no two visible entries denote the same identifier. -/
theorem eq_of_denotes {handlers : List HandlerSource} {a b : Name} {id : Identifier}
    (listed : tree.resolveDirectory directory = .ok place)
    (h : discover tree directory = .ok handlers)
    (ha : Visible tree place a) (hb : Visible tree place b)
    (hda : Denotes (tree.isDirectory (directory.join a)) a id)
    (hdb : Denotes (tree.isDirectory (directory.join b)) b id) : a = b := by
  obtain ⟨s, hs, hsa, hpa⟩ := exists_source_of_visible listed h ha
  obtain ⟨t, ht, htb, hpb⟩ := exists_source_of_visible listed h hb
  obtain ⟨-, -, -, sorted, -⟩ := discover_ok h
  have hid : s.id = t.id := (hsa.unique hda).trans (hdb.unique htb)
  have he : s = t := List.inj_on_of_nodup_map sorted.nodup_ids hs ht hid
  exact Path.join_injective (hpa.symm.trans ((congrArg HandlerSource.path he).trans hpb))

theorem exists_discover
    (listed : tree.resolveDirectory directory = .ok place)
    (texts : ∀ name, (tree.lookup (name :: place)).isSome → name.isHidden = true →
      ∃ text, name.bytes = Utf8.encode text)
    (denoting : ∀ name, Visible tree place name →
      ∃ id, Denotes (tree.isDirectory (directory.join name)) name id)
    (distinct : ∀ a b id, Visible tree place a → Visible tree place b →
      Denotes (tree.isDirectory (directory.join a)) a id →
      Denotes (tree.isDirectory (directory.join b)) b id → a = b) :
    ∃ handlers, discover tree directory = .ok handlers := by
  have hall : ∀ name ∈ tree.childrenOf place,
      ∃ id?, identify tree (directory.join name) name = .ok id? := by
    intro name hm
    have hn := FileTree.mem_childrenOf.mp hm
    cases hh : name.isHidden with
    | true => exact ⟨none, identify_eq_none_iff.mpr ⟨hh, texts name hn hh⟩⟩
    | false =>
      obtain ⟨id, hd⟩ := denoting name ⟨hn, hh⟩
      exact ⟨some id, identify_eq_some_iff.mpr hd⟩
  have hids : ((sourcesOf tree directory (tree.childrenOf place)).map
      HandlerSource.id).Nodup := by
    -- Names denote distinct identifiers only among the entries of this directory.
    rw [sourcesOf, List.Nodup, List.pairwise_map, List.pairwise_filterMap]
    refine (FileTree.nodup_childrenOf tree place).imp_of_mem ?_
    intro a b ha hb hne s hs t ht he
    obtain ⟨hda, -⟩ := sourceOf?_eq_some_iff_represents.mp hs
    obtain ⟨hdb, -⟩ := sourceOf?_eq_some_iff_represents.mp ht
    refine hne (distinct a b s.id ?_ ?_ hda (he ▸ hdb))
    · exact ⟨FileTree.mem_childrenOf.mp ha, hda.isHidden⟩
    · exact ⟨FileTree.mem_childrenOf.mp hb, hdb.isHidden⟩
  rw [← List.append_nil (sourcesOf tree directory _)] at hids
  obtain ⟨handlers, hc⟩ := exists_collect List.Pairwise.nil hall hids
  exact ⟨handlers, (discover_eq listed).trans hc⟩

/-! ## The exact result -/

/-- Discovery in a directory that can be listed and whose hidden entries have names that are texts
succeeds if and only if every visible entry denotes an identifier and no two denote the same one.
The handlers are then in the order of their identifiers, and one to one with the visible entries.
Whether an entry is a directory is asked of its path, which follows links and else gives the entry
itself. -/
theorem discover_exact (tree : FileTree) (directory : Path) (place : Place)
    (listed : tree.resolveDirectory directory = .ok place)
    (texts : ∀ name, (tree.lookup (name :: place)).isSome → name.isHidden = true →
      ∃ text, name.bytes = Utf8.encode text) :
    ((∃ handlers, discover tree directory = .ok handlers) ↔
      (∀ name, Visible tree place name →
        ∃ id, Denotes (tree.isDirectory (directory.join name)) name id) ∧
      ∀ a b id, Visible tree place a → Visible tree place b →
        Denotes (tree.isDirectory (directory.join a)) a id →
        Denotes (tree.isDirectory (directory.join b)) b id → a = b) ∧
    (∀ handlers, discover tree directory = .ok handlers →
      handlers.Pairwise (fun a b => Utf8.encode a.id.text < Utf8.encode b.id.text) ∧
      ∃ order : List Name, order.Nodup ∧ (∀ name, name ∈ order ↔ Visible tree place name) ∧
        List.Forall₂ (fun source name =>
          Denotes (tree.isDirectory (directory.join name)) name source.id ∧
            source.path = directory.join name) handlers order) ∧
    ∀ name node, tree.lookup (name :: place) = some node → (∀ target, node ≠ .link target) →
      (directory.join name).isTooLong = false →
      tree.isDirectory (directory.join name) = (node == .directory) := by
  refine ⟨⟨?_, fun ⟨hd, hu⟩ => exists_discover listed texts hd hu⟩, ?_, ?_⟩
  · rintro ⟨handlers, h⟩
    refine ⟨fun name hv => ?_, fun a b id => eq_of_denotes listed h⟩
    obtain ⟨source, -, hd, -⟩ := exists_source_of_visible listed h hv
    exact ⟨source.id, hd⟩
  · intro handlers h
    obtain ⟨-, -, -, sorted, -⟩ := discover_ok h
    exact ⟨sorted, represents_of_discover listed h⟩
  · intro name node entry plain short
    exact FileTree.isDirectory_join listed short entry plain

/-! ### A hidden file, a trailing dot and a link to a directory -/

namespace Sample

def top : Name := ⟨Utf8.encode "srv", by decide⟩
def hidden : Name := ⟨Utf8.encode ".keep", by decide⟩
def http : Name := ⟨Utf8.encode "http.", by decide⟩
def smtp : Name := ⟨Utf8.encode "smtp", by decide⟩
def ftp : Name := ⟨Utf8.encode "ftp", by decide⟩

/-- A working directory whose visible entries are a file, a directory that is not empty, and a link
to that directory. -/
def mixed : FileTree where
  entries := [([top], .directory), ([hidden, top], .file [] 0o644 .owner), ([smtp, top], .directory),
    ([http, smtp, top], .file [] 0o644 .owner), ([http, top], .file [] 0o644 .owner),
    ([ftp, top], .link (Path.ofText "smtp"))]
  home := [top]
  privileged := false
  distinct := by
    simp only [List.map_cons, List.map_nil]
    decide

end Sample

theorem discover_working_directory :
    Sample.mixed.resolveDirectory (Path.ofText ".") = .ok [Sample.top] ∧
    discover Sample.mixed (Path.ofText ".") = .ok
      [⟨⟨"ftp", by decide⟩, Path.ofText "./ftp"⟩, ⟨⟨"http", by decide⟩, Path.ofText "./http."⟩,
        ⟨⟨"smtp", by decide⟩, Path.ofText "./smtp"⟩] ∧
    ∀ name, Visible Sample.mixed [Sample.top] name →
      ∃ id, Denotes (Sample.mixed.isDirectory ((Path.ofText ".").join name)) name id := by
  have listed : Sample.mixed.resolveDirectory (Path.ofText ".") = .ok [Sample.top] := by
    decide +kernel
  have found : discover Sample.mixed (Path.ofText ".") = .ok
      [⟨⟨"ftp", by decide⟩, Path.ofText "./ftp"⟩, ⟨⟨"http", by decide⟩, Path.ofText "./http."⟩,
        ⟨⟨"smtp", by decide⟩, Path.ofText "./smtp"⟩] := by
    decide +kernel
  have texts : ∀ name ∈ Sample.mixed.childrenOf [Sample.top],
      (Utf8.decode? name.bytes).isSome = true := by
    decide +kernel
  refine ⟨listed, found, ?_⟩
  refine ((discover_exact Sample.mixed (Path.ofText ".") [Sample.top] listed ?_).1.mp ⟨_, found⟩).1
  intro name hn hh
  obtain ⟨text, ht⟩ := Option.isSome_iff_exists.mp (texts name (FileTree.mem_childrenOf.mpr hn))
  exact ⟨text, Utf8.decode?_eq_some_iff.mp ht⟩

end HandlerRegistry.Discovery
