import HandlerRegistry.Proofs.Discovery.Denotes
import HandlerRegistry.Proofs.FileTree.Visits

/-! # Hidden entries

Discovery passes over an entry whose name begins with a dot, but only after it has read the name as
a text. So a hidden entry makes no difference as long as its name is one
(`hidden_entry_matters_by_name`); under any other name its presence makes discovery fail. -/

namespace HandlerRegistry.Discovery
set_option autoImplicit false

open FileTree

/-! ## Lists of names with one name more -/

section
variable {tree other : FileTree} {directory : Path} {name : Name} {names : List Name}
  {found : List HandlerSource}

theorem collect_congr (h : ∀ name ∈ names,
    identify tree (directory.join name) name = identify other (directory.join name) name) :
    collect tree directory found names = collect other directory found names := by
  induction names generalizing found with
  | nil => rfl
  | cons name rest ih =>
    obtain ⟨hn, hr⟩ := List.forall_mem_cons.mp h
    rw [collect_cons, collect_cons, addEntry, addEntry, hn]
    congr 1
    funext added
    exact ih hr

theorem collect_filter (skipped : identify tree (directory.join name) name = .ok none) :
    collect tree directory found (names.filter (· ≠ name)) =
      collect tree directory found names := by
  induction names generalizing found with
  | nil => rfl
  | cons first rest ih =>
    rw [List.filter_cons, collect_cons]
    by_cases h : first = name
    · rw [h, if_neg (by simp), addEntry, skipped]
      exact ih
    · rw [if_pos (by simpa using h), collect_cons]
      congr 1
      funext added
      exact ih

/-- With an entry, discovery fails because of that entry, or as it fails without the entry. -/
def Spoils (cause : Failure) (without present : Except Failure (List HandlerSource)) : Prop :=
  present = .error cause ∨ ∃ failure, without = .error failure ∧ present = .error failure

theorem spoils_collect {cause : Failure} (mem : name ∈ names)
    (refused : identify tree (directory.join name) name = .error cause) :
    Spoils cause (collect tree directory found (names.filter (· ≠ name)))
      (collect tree directory found names) := by
  induction names generalizing found with
  | nil => cases mem
  | cons first rest ih =>
    rw [List.filter_cons, collect_cons]
    by_cases h : first = name
    · rw [h, addEntry, refused]
      exact .inl rfl
    · have hm : name ∈ rest := (List.mem_cons.mp mem).resolve_left fun e => h e.symm
      rw [if_pos (by simpa using h), collect_cons]
      cases addEntry tree directory found first with
      | error failure => exact .inr ⟨failure, rfl, rfl⟩
      | ok added => exact ih hm

end

/-! ## One entry more in a directory -/

/-- An entry of a directory has no part in how the directory is found, nor in what the visible links
of the directory lead to: no such path is resolved through it. -/
structure Unrelated (tree : FileTree) (directory : Path) (place : Place) (name : Name) : Prop where
  listed : tree.resolveDirectory directory = .ok place
  path : ¬ tree.ResolvesThrough directory (name :: place)
  links : ∀ other target, other.isHidden = false →
    tree.lookup (other :: place) = some (.link target) →
      ¬ tree.ResolvesThrough (directory.join other) (name :: place)

section
variable {a b : FileTree} {directory : Path} {place : Place} {name : Name}

theorem isDirectory_visible (agree : AgreeBut name place a b)
    (unrelated : Unrelated a directory place name) {other : Name} (hne : other ≠ name)
    (visible : other.isHidden = false) (present : other ∈ a.childrenOf place) :
    a.isDirectory (directory.join other) = b.isDirectory (directory.join other) := by
  obtain ⟨node, hn⟩ := Option.isSome_iff_exists.mp (mem_childrenOf.mp present)
  have hb : b.lookup (other :: place) = some node := by
    rw [← agree.lookup _ (isWithin_sibling hne place)]
    exact hn
  by_cases hl : ∃ target, node = .link target
  · obtain ⟨target, rfl⟩ := hl
    exact agree.isDirectory_eq (unrelated.links other target visible hn)
  · have plain : ∀ target, node ≠ .link target := fun target e => hl ⟨target, e⟩
    have hd := agree.resolveDirectory_eq unrelated.path unrelated.listed
    cases short : (directory.join other).isTooLong with
    | true =>
      rw [isDirectory_of_isTooLong short, isDirectory_of_isTooLong short]
    | false =>
      rw [isDirectory_join unrelated.listed short hn plain, isDirectory_join hd short hb plain]

theorem identify_other (agree : AgreeBut name place a b)
    (unrelated : Unrelated a directory place name) {other : Name} (hne : other ≠ name)
    (present : other ∈ a.childrenOf place) :
    identify a (directory.join other) other = identify b (directory.join other) other := by
  rw [identify, identify]
  cases Utf8.decode? other.bytes with
  | none => rfl
  | some text =>
    cases hh : other.isHidden with
    | true => rfl
    | false => rw [isDirectory_visible agree unrelated hne hh present]

/-- What two trees list apart from the hidden entry is collected alike. -/
theorem collect_others (agree : AgreeBut name place a b)
    (unrelated : Unrelated a directory place name) :
    collect a directory [] ((a.childrenOf place).filter (· ≠ name)) =
      collect b directory [] ((b.childrenOf place).filter (· ≠ name)) := by
  rw [← agree.order]
  apply collect_congr
  intro other hm
  obtain ⟨present, hne⟩ := List.mem_filter.mp hm
  exact identify_other agree unrelated (by simpa using hne) present

theorem Unrelated.of_agree (unrelated : Unrelated a directory place name)
    (agree : AgreeBut name place a b) (hidden : name.isHidden = true) :
    Unrelated b directory place name where
  listed := agree.resolveDirectory_eq unrelated.path unrelated.listed
  path := agree.not_resolvesThrough unrelated.path
  links other target visible hl := by
    have hne : other ≠ name := by
      rintro rfl
      rw [hidden] at visible
      cases visible
    rw [← agree.lookup _ (isWithin_sibling hne place)] at hl
    exact agree.not_resolvesThrough (unrelated.links other target visible hl)

theorem spoils_discover (agree : AgreeBut name place a b)
    (unrelated : Unrelated a directory place name)
    (unreadable : ¬ ∃ text, name.bytes = Utf8.encode text)
    (absent : a.lookup (name :: place) = none) (present : (b.lookup (name :: place)).isSome) :
    Spoils (.invalidIdentifier (directory.join name) .notUtf8) (discover a directory)
      (discover b directory) := by
  have hr : identify b (directory.join name) name =
      .error (.invalidIdentifier (directory.join name) .notUtf8) := by
    rw [identify]
    cases ht : Utf8.decode? name.bytes with
    | none => rfl
    | some text => exact absurd ⟨text, Utf8.decode?_eq_some_iff.mp ht⟩ unreadable
  have ha : (a.childrenOf place).filter (· ≠ name) = a.childrenOf place := by
    apply List.filter_eq_self.mpr
    intro other hm
    rw [decide_eq_true_eq]
    rintro rfl
    rw [mem_childrenOf, absent] at hm
    cases hm
  have hs : Spoils _ (collect b directory [] ((b.childrenOf place).filter (· ≠ name)))
      (collect b directory [] (b.childrenOf place)) :=
    spoils_collect (mem_childrenOf.mpr present) hr
  rw [← collect_others agree unrelated, ha] at hs
  rwa [discover_eq unrelated.listed,
    discover_eq (agree.resolveDirectory_eq unrelated.path unrelated.listed)]

end

/-- A hidden entry whose name is a text may come and go: discovery gives the same handlers, or fails
in the same way. Under a name that is no text, discovery fails as long as the entry is there, because
of that name unless it fails without the entry as well. -/
theorem hidden_entry_matters_by_name (before after : FileTree) (directory : Path) (place : Place)
    (name : Name) (hidden : name.isHidden = true) (agree : AgreeBut name place before after)
    (unrelated : Unrelated before directory place name) :
    ((∃ text, name.bytes = Utf8.encode text) →
        discover after directory = discover before directory) ∧
      ((¬ ∃ text, name.bytes = Utf8.encode text) →
        (before.lookup (name :: place) = none → (after.lookup (name :: place)).isSome →
          Spoils (.invalidIdentifier (directory.join name) .notUtf8) (discover before directory)
            (discover after directory)) ∧
        ((before.lookup (name :: place)).isSome → after.lookup (name :: place) = none →
          Spoils (.invalidIdentifier (directory.join name) .notUtf8) (discover after directory)
            (discover before directory))) := by
  have others := unrelated.of_agree agree hidden
  refine ⟨fun readable => ?_, fun unreadable => ⟨fun absent present => ?_, fun present absent => ?_⟩⟩
  · have hs : ∀ tree, identify tree (directory.join name) name = .ok none :=
      fun tree => identify_eq_none_iff.mpr ⟨hidden, readable⟩
    rw [discover_eq unrelated.listed, discover_eq others.listed, ← collect_filter (hs before),
      ← collect_filter (hs after), collect_others agree unrelated]
  · exact spoils_discover agree unrelated unreadable absent present
  · exact spoils_discover agree.symm others unreadable absent present

/-! ### A file beside a link to it, and hidden entries of both sorts -/

namespace Sample

def shelf : Name := ⟨Utf8.encode "shelf", by decide⟩
def plain : Name := ⟨Utf8.encode "smb.rs", by decide⟩
def linked : Name := ⟨Utf8.encode "nfs", by decide⟩
def swap : Name := ⟨Utf8.encode ".smb.rs.swp", by decide⟩
def raw : Name := ⟨[0x2E, 0xFF], by decide⟩

/-- A working directory with a file and a link to it. -/
def visible : FileTree where
  entries := [([shelf], .directory), ([plain, shelf], .file [] 0o644 .owner),
    ([linked, shelf], .link (Path.ofText "smb.rs"))]
  home := [shelf]
  privileged := false
  distinct := by
    simp only [List.map_cons, List.map_nil]
    decide

theorem eq_linked {other : Name} {target : Path}
    (h : visible.lookup (other :: [shelf]) = some (.link target)) : other = linked := by
  have hm := (Keyed.lookup_eq_some_iff _ _ _ visible.distinct).mp h
  have he : other = linked ∧ target = Path.ofText "smb.rs" := by
    simpa [visible] using hm
  exact he.1

theorem unrelated {name : Name}
    (path : ¬ visible.ResolvesThrough (Path.ofText ".") [name, shelf])
    (link : ¬ visible.ResolvesThrough ((Path.ofText ".").join linked) [name, shelf]) :
    Unrelated visible (Path.ofText ".") [shelf] name where
  listed := by decide +kernel
  path := path
  links other target _ h := by rwa [eq_linked h]

theorem unrelated_raw : Unrelated visible (Path.ofText ".") [shelf] raw :=
  unrelated (by decide +kernel) (by decide +kernel)

/-- The same with a directory whose name is no text, and a file in it. -/
def cluttered : FileTree where
  entries := visible.entries ++ [([raw, shelf], .directory), ([plain, raw, shelf], .file [] 0o644 .owner)]
  home := [shelf]
  privileged := false
  distinct := by
    simp only [visible, List.cons_append, List.nil_append, List.map_cons, List.map_nil]
    decide

theorem agree_raw : AgreeBut raw [shelf] visible cluttered := by
  have h := agreeBut_keep cluttered raw [shelf]
  have hk : (cluttered.keep fun place => !isWithin [raw, shelf] place) = visible := by
    decide +kernel
  rwa [hk] at h

theorem raw_unreadable : ¬ ∃ text, raw.bytes = Utf8.encode text := by
  rintro ⟨text, ht⟩
  have hd := Utf8.decode?_eq_some_iff.mpr ht
  have hn : Utf8.decode? raw.bytes = none := by decide +kernel
  rw [hn] at hd
  cases hd

theorem discover_visible : (discover visible (Path.ofText ".")).toBool = true := by
  decide +kernel

end Sample

theorem hidden_file_and_raw_directory :
    (discover (Sample.visible.put [Sample.swap, Sample.shelf] (.file [] 0o600 .owner)) (Path.ofText ".") =
        discover Sample.visible (Path.ofText ".")) ∧
      discover Sample.cluttered (Path.ofText ".") =
        .error (.invalidIdentifier ((Path.ofText ".").join Sample.raw) .notUtf8) := by
  constructor
  · obtain ⟨hs, -⟩ := hidden_entry_matters_by_name Sample.visible _ (Path.ofText ".")
      [Sample.shelf] Sample.swap (by decide) (agreeBut_put (by decide) (.file [] 0o600 .owner)).symm
      (Sample.unrelated (by decide +kernel) (by decide +kernel))
    exact hs ⟨".smb.rs.swp", rfl⟩
  · obtain ⟨-, hn⟩ := hidden_entry_matters_by_name Sample.visible Sample.cluttered
      (Path.ofText ".") [Sample.shelf] Sample.raw (by decide) Sample.agree_raw
      Sample.unrelated_raw
    obtain he | ⟨failure, hf, -⟩ := (hn Sample.raw_unreadable).1 (by decide) (by decide)
    · exact he
    · have hok := Sample.discover_visible
      rw [hf] at hok
      cases hok

/-- Not every hidden entry is passed over. -/
theorem hidden_entry_not_always_skipped :
    ¬ ∀ (before after : FileTree) (directory : Path) (place : Place) (name : Name),
      name.isHidden = true → AgreeBut name place before after →
        Unrelated before directory place name →
          discover after directory = discover before directory := by
  intro h
  have he := h Sample.visible Sample.cluttered (Path.ofText ".") [Sample.shelf] Sample.raw
    (by decide) Sample.agree_raw Sample.unrelated_raw
  have hok := Sample.discover_visible
  have hno : (discover Sample.cluttered (Path.ofText ".")).toBool = false := by decide +kernel
  rw [he, hok] at hno
  cases hno

end HandlerRegistry.Discovery
