import HandlerRegistry.FileTree.Edit
import HandlerRegistry.Proofs.Artifact.HeaderText
import HandlerRegistry.Proofs.Artifact.ModuleText

/-! # Which handlers an artifact refuses

A Rust module refuses reserved words, and directories without a module root. It looks at all names
before it looks at any file, so a reserved word is told of first wherever it stands in the list. A
header refuses nothing. -/

namespace HandlerRegistry.Artifact
set_option autoImplicit false

namespace RustModule
variable {tree : FileTree} {source : HandlerSource} {root : Path} {failure : Failure}

/-! ## Names -/

theorem check_eq_ok_iff : check source = .ok () ↔ source.id.isReserved = false := by
  rw [check]
  by_cases h : source.id.isReserved <;> simp [h]

theorem check_eq_error_iff : check source = .error failure ↔
    source.id.isReserved = true ∧
      failure = .invalidIdentifier source.path (.keyword source.id.text) := by
  rw [check]
  by_cases h : source.id.isReserved <;> simp [h, eq_comm]

/-! ## Module roots -/

/-- What is declared as the module root of a handler. -/
inductive IsRoot (tree : FileTree) (source : HandlerSource) : Path → Prop where
  | entry (plain : tree.isDirectory source.path = false) : IsRoot tree source source.path
  | first (directory : tree.isDirectory source.path = true)
      (found : tree.pathExists (source.path.join modFile) = true) :
      IsRoot tree source (source.path.join modFile)
  | second (directory : tree.isDirectory source.path = true)
      (absent : tree.pathExists (source.path.join modFile) = false)
      (found : tree.pathExists (source.path.join libFile) = true) :
      IsRoot tree source (source.path.join libFile)

theorem isRoot_of_moduleRoot (h : moduleRoot tree source = .ok root) : IsRoot tree source root := by
  rw [moduleRoot] at h
  split at h
  · rename_i hd
    split at h
    · rename_i hm
      cases h
      exact .first hd hm
    · rename_i hm
      split at h
      · rename_i hl
        cases h
        exact .second hd (Bool.eq_false_iff.mpr hm) hl
      · cases h
  · rename_i hd
    cases h
    exact .entry (Bool.eq_false_iff.mpr hd)

/-- If the handler is a directory, there is something in it under a name for the module root. -/
def HasRoot (tree : FileTree) (source : HandlerSource) : Prop :=
  tree.isDirectory source.path = true →
    tree.pathExists (source.path.join modFile) = true ∨
      tree.pathExists (source.path.join libFile) = true

instance (tree : FileTree) (source : HandlerSource) : Decidable (HasRoot tree source) :=
  inferInstanceAs (Decidable (_ → _))

theorem moduleRoot_eq_error_iff : moduleRoot tree source = .error failure ↔
    ¬ HasRoot tree source ∧ failure = .missingModule source.path := by
  rw [moduleRoot, HasRoot]
  by_cases hd : tree.isDirectory source.path
  · by_cases hm : tree.pathExists (source.path.join modFile)
    · simp [hd, hm]
    · by_cases hl : tree.pathExists (source.path.join libFile) <;> simp [hd, hm, hl, eq_comm]
  · simp [hd]

theorem exists_moduleRoot_iff : (∃ root, moduleRoot tree source = .ok root) ↔
    HasRoot tree source := by
  constructor
  · rintro ⟨root, hr⟩
    by_contra hn
    have he := moduleRoot_eq_error_iff.mpr ⟨hn, rfl⟩
    rw [hr] at he
    cases he
  · intro h
    cases hr : moduleRoot tree source with
    | ok root => exact ⟨root, rfl⟩
    | error failure => exact absurd h (moduleRoot_eq_error_iff.mp hr).1

theorem exists_declaration_iff : (∃ text, declaration tree source = .ok text) ↔
    HasRoot tree source := by
  rw [← exists_moduleRoot_iff, declaration]
  cases moduleRoot tree source <;> simp

theorem declaration_eq_error_iff : declaration tree source = .error failure ↔
    ¬ HasRoot tree source ∧ failure = .missingModule source.path := by
  rw [← moduleRoot_eq_error_iff, declaration]
  cases moduleRoot tree source <;> simp

/-! ## Renderings -/

variable {sources before after : List HandlerSource} {capacity : Nat}

theorem exists_render_iff : (∃ text, template.render tree sources capacity = .ok text) ↔
    ∀ source ∈ sources, source.id.isReserved = false ∧ HasRoot tree source := by
  constructor
  · rintro ⟨text, h⟩ source hm
    obtain ⟨hc, declarations, hd, -⟩ := Template.render_eq_ok_iff.mp h
    obtain ⟨declared, hs⟩ : ∃ declared, declaration tree source = .ok declared := by
      obtain ⟨i, hi, rfl⟩ := List.getElem_of_mem hm
      exact ⟨_, hd.get hi (hd.length_eq ▸ hi)⟩
    exact ⟨check_eq_ok_iff.mp (hc source hm), exists_declaration_iff.mp ⟨declared, hs⟩⟩
  · intro h
    cases hr : template.render tree sources capacity with
    | ok text => exact ⟨text, rfl⟩
    | error failure =>
      exfalso
      obtain ⟨before, source, after, he, -, hc⟩ | ⟨-, before, source, after, he, -, hd⟩ :=
        Template.render_eq_error_iff.mp hr
      · have hn := (h source (he ▸ List.mem_append_cons_self)).1
        rw [(check_eq_error_iff.mp hc).1] at hn
        cases hn
      · exact (declaration_eq_error_iff.mp hd).1 (h source (he ▸ List.mem_append_cons_self)).2

theorem render_of_reserved (hb : ∀ other ∈ before, other.id.isReserved = false)
    (hs : source.id.isReserved = true) :
    template.render tree (before ++ source :: after) capacity =
      .error (.invalidIdentifier source.path (.keyword source.id.text)) := by
  refine Template.render_eq_error_iff.mpr (.inl ⟨before, source, after, rfl, ?_, ?_⟩)
  · exact fun other hm => ⟨(), check_eq_ok_iff.mpr (hb other hm)⟩
  · exact check_eq_error_iff.mpr ⟨hs, rfl⟩

theorem render_of_rootless
    (hn : ∀ other ∈ before ++ source :: after, other.id.isReserved = false)
    (hb : ∀ other ∈ before, HasRoot tree other) (hs : ¬ HasRoot tree source) :
    template.render tree (before ++ source :: after) capacity =
      .error (.missingModule source.path) := by
  refine Template.render_eq_error_iff.mpr (.inr ⟨?_, before, source, after, rfl, ?_, ?_⟩)
  · exact fun other hm => check_eq_ok_iff.mpr (hn other hm)
  · exact fun other hm => exists_declaration_iff.mpr (hb other hm)
  · exact declaration_eq_error_iff.mpr ⟨hs, rfl⟩

end RustModule

/-- When a rendering fails, and with what. A Rust module is rendered if no handler is named like a
reserved word and every handler has a module root. Otherwise the failure tells of the first reserved
word in the list, and only if there is none, of the first handler without a module root. A header is
always rendered, and its text depends on the identifiers and the number of slots alone. -/
theorem rendering_refuses_first (tree : FileTree) (sources : List HandlerSource) (capacity : Nat) :
    ((∃ text, RustModule.template.render tree sources capacity = .ok text) ↔
      ∀ source ∈ sources, source.id.isReserved = false ∧ RustModule.HasRoot tree source) ∧
    (∀ before source after, sources = before ++ source :: after →
      (∀ other ∈ before, other.id.isReserved = false) → source.id.isReserved = true →
        RustModule.template.render tree sources capacity =
          .error (.invalidIdentifier source.path (.keyword source.id.text))) ∧
    (∀ before source after, sources = before ++ source :: after →
      (∀ other ∈ sources, other.id.isReserved = false) →
        (∀ other ∈ before, RustModule.HasRoot tree other) → ¬ RustModule.HasRoot tree source →
          RustModule.template.render tree sources capacity =
            .error (.missingModule source.path)) ∧
    ∃ text, ∀ (otherTree : FileTree) (others : List HandlerSource),
      others.map (·.id) = sources.map (·.id) →
        CHeader.template.render otherTree others capacity = .ok text := by
  refine ⟨RustModule.exists_render_iff, ?_, ?_,
    CHeader.template.assemble (sources.map CHeader.declaration) sources capacity, ?_⟩
  · rintro before source after rfl hb hs
    exact RustModule.render_of_reserved hb hs
  · rintro before source after rfl hn hb hs
    exact RustModule.render_of_rootless hn hb hs
  · intro otherTree others hi
    rw [CHeader.render_eq, CHeader.assemble_congr hi]

/-! ### A directory without a module root, and a reserved word after it -/

namespace Sample

def workshop : Name := ⟨Utf8.encode "workshop", by decide⟩
def finger : Name := ⟨Utf8.encode "finger", by decide⟩

def rootless : FileTree := (FileTree.empty workshop).put [finger, workshop] .directory

def fingerSource : HandlerSource := ⟨⟨"finger", by decide⟩, Path.ofText "finger"⟩
def yieldSource : HandlerSource := ⟨⟨"yield", by decide⟩, Path.ofText "yield.rs"⟩

end Sample

theorem reserved_word_refused_before_root :
    RustModule.template.render Sample.rootless [Sample.fingerSource, Sample.yieldSource] 2 =
        .error (.invalidIdentifier (Path.ofText "yield.rs") (.keyword "yield")) ∧
      RustModule.template.render Sample.rootless [Sample.fingerSource] 1 =
        .error (.missingModule (Path.ofText "finger")) := by
  have hf : ∀ other ∈ [Sample.fingerSource], other.id.isReserved = false := by decide
  obtain ⟨-, hreserved, -⟩ :=
    rendering_refuses_first Sample.rootless [Sample.fingerSource, Sample.yieldSource] 2
  obtain ⟨-, -, hrootless, -⟩ := rendering_refuses_first Sample.rootless [Sample.fingerSource] 1
  refine ⟨hreserved [Sample.fingerSource] Sample.yieldSource [] rfl hf (by decide), ?_⟩
  refine hrootless [] Sample.fingerSource [] rfl hf (fun other hm => (nomatch hm)) ?_
  decide +kernel

end HandlerRegistry.Artifact
