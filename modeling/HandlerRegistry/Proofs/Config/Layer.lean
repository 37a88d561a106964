import HandlerRegistry.Config.Document
import HandlerRegistry.Proofs.Keyed
import HandlerRegistry.Proofs.Toml.Table

/-! # What a document sets

A document that is accepted sets some of the fields, each by the value of its own key, and leaves
the others as they are. So a loaded configuration is the standard one with the layer of the document
put over it (`exists_layer_of_load`). -/

namespace HandlerRegistry.Config
set_option autoImplicit false

/-- Some of the fields of a configuration. -/
structure Layer where
  inputDir : Option Path
  output : Option Path
  kind : Option Artifact.Kind
  capacity : Option Capacity

def Layer.nothing : Layer := ⟨none, none, none, none⟩

/-- A configuration with the fields of a layer put over it. -/
def Layer.over (layer : Layer) (config : Config) : Config where
  inputDir := layer.inputDir.getD config.inputDir
  output := layer.output.getD config.output
  kind := layer.kind.or config.kind
  capacity := layer.capacity.getD config.capacity

/-! ## The keys of a document -/

/-- What a document says under a key: nothing, or a value that can be read. -/
inductive Says {α : Type} (entries : Toml.Entries) (key : String)
    (read : Toml.Value → Except Refusal α) : Option α → Prop where
  | absent (h : entries.lookup key = none) : Says entries key read none
  | present {value : Toml.Value} {result : α} (h : entries.lookup key = some value)
    (hr : read value = .ok result) : Says entries key read (some result)

section
variable {α : Type} {entries others : Toml.Entries} {key name : String}
  {read : Toml.Value → Except Refusal α} {result? : Option α} {value : Toml.Value} {result : α}

theorem Says.congr (h : Says entries key read result?)
    (he : others.lookup key = entries.lookup key) : Says others key read result? := by
  cases h with
  | absent hn => exact .absent (he.trans hn)
  | present hs hr => exact .present (he.trans hs) hr

theorem Says.cons (h : Says entries key read result?) (hn : key ≠ name) :
    Says ((name, value) :: entries) key read result? := by
  apply h.congr
  rw [Keyed.lookup_cons_eq_ite, if_neg hn]

theorem says_cons (hr : read value = .ok result) :
    Says ((key, value) :: entries) key read (some result) := by
  refine .present ?_ hr
  rw [Keyed.lookup_cons_eq_ite, if_pos rfl]

theorem Says.unique {other? : Option α} (h : Says entries key read result?)
    (ho : Says entries key read other?) : result? = other? := by
  cases h with
  | absent hn =>
    cases ho with
    | absent => rfl
    | present hs => cases hn.symm.trans hs
  | present hs hr =>
    cases ho with
    | absent hn => cases hn.symm.trans hs
    | present hs' hr' =>
      cases hs.symm.trans hs'
      cases hr.symm.trans hr'
      rfl

theorem Says.eq_none (h : Says entries key read result?) (hm : key ∉ entries.map Prod.fst) :
    result? = none := by
  cases h with
  | absent => rfl
  | present hs =>
    rw [(Keyed.lookup_eq_none_iff key entries).mpr hm] at hs
    cases hs

end

/-- The layer that a document is: each field is what the document says under its key. -/
structure Layer.Of (entries : Toml.Entries) (layer : Layer) : Prop where
  inputDir : Says entries "input-dir" readPath layer.inputDir
  output : Says entries "output" readPath layer.output
  kind : Says entries "kind" readKind layer.kind
  capacity : Says entries "capacity" readCapacity layer.capacity

theorem Layer.Of.perm {entries others : Toml.Entries} {layer : Layer} (h : layer.Of entries)
    (distinct : Toml.Distinct entries) (p : others.Perm entries) : layer.Of others := by
  have hl : ∀ key, others.lookup key = entries.lookup key :=
    fun key => Keyed.lookup_perm distinct p.symm key
  exact ⟨h.inputDir.congr (hl _), h.output.congr (hl _), h.kind.congr (hl _),
    h.capacity.congr (hl _)⟩

/-! ## Entries put over a configuration -/

/-- What the value of one key can do. -/
theorem set_cases {config next : Config} {key : String} {value : Toml.Value}
    (h : config.set key value = .ok next) :
    (∃ path, key = "input-dir" ∧ readPath value = .ok path ∧
        next = { config with inputDir := path }) ∨
      (∃ path, key = "output" ∧ readPath value = .ok path ∧
        next = { config with output := path }) ∨
      (∃ kind, key = "kind" ∧ readKind value = .ok kind ∧
        next = { config with kind := some kind }) ∨
      ∃ capacity, key = "capacity" ∧ readCapacity value = .ok capacity ∧
        next = { config with capacity := capacity } := by
  have hm : ∀ {α : Type} {read : Except Refusal α} {change : α → Config},
      read.map change = .ok next → ∃ result, read = .ok result ∧ next = change result := by
    intro α read change hr
    cases read with
    | error refusal => cases hr
    | ok result =>
      cases hr
      exact ⟨result, rfl, rfl⟩
  rw [set] at h
  split at h
  · rename_i hk
    obtain ⟨path, hr, hn⟩ := hm h
    exact .inl ⟨path, hk, hr, hn⟩
  · split at h
    · rename_i hk
      obtain ⟨path, hr, hn⟩ := hm h
      exact .inr (.inl ⟨path, hk, hr, hn⟩)
    · split at h
      · rename_i hk
        obtain ⟨kind, hr, hn⟩ := hm h
        exact .inr (.inr (.inl ⟨kind, hk, hr, hn⟩))
      · split at h
        · rename_i hk
          obtain ⟨capacity, hr, hn⟩ := hm h
          exact .inr (.inr (.inr ⟨capacity, hk, hr, hn⟩))
        · cases h

theorem exists_layer_of_setAll {entries : Toml.Entries} {config result : Config}
    (distinct : Toml.Distinct entries) (h : config.setAll entries = .ok result) :
    ∃ layer : Layer, layer.Of entries ∧ result = layer.over config := by
  induction entries generalizing config with
  | nil =>
    cases h
    exact ⟨.nothing, ⟨.absent rfl, .absent rfl, .absent rfl, .absent rfl⟩, rfl⟩
  | cons entry rest ih =>
    obtain ⟨key, value⟩ := entry
    obtain ⟨hm, hd⟩ := List.nodup_cons.mp distinct
    rw [setAll] at h
    split at h
    · rename_i next hs
      obtain ⟨layer, hl, rfl⟩ := ih hd h
      -- The key does not come again, so the rest of the document leaves its field alone.
      obtain ⟨path, rfl, hr, rfl⟩ | ⟨path, rfl, hr, rfl⟩ | ⟨kind, rfl, hr, rfl⟩ |
        ⟨capacity, rfl, hr, rfl⟩ := set_cases hs
      · refine ⟨{ layer with inputDir := some path }, ⟨says_cons hr, hl.output.cons (by decide),
          hl.kind.cons (by decide), hl.capacity.cons (by decide)⟩, ?_⟩
        simp only [Layer.over, hl.inputDir.eq_none hm, Option.getD]
      · refine ⟨{ layer with output := some path }, ⟨hl.inputDir.cons (by decide), says_cons hr,
          hl.kind.cons (by decide), hl.capacity.cons (by decide)⟩, ?_⟩
        simp only [Layer.over, hl.output.eq_none hm, Option.getD]
      · refine ⟨{ layer with kind := some kind }, ⟨hl.inputDir.cons (by decide),
          hl.output.cons (by decide), says_cons hr, hl.capacity.cons (by decide)⟩, ?_⟩
        simp only [Layer.over, hl.kind.eq_none hm, Option.or]
      · refine ⟨{ layer with capacity := some capacity }, ⟨hl.inputDir.cons (by decide),
          hl.output.cons (by decide), hl.kind.cons (by decide), says_cons hr⟩, ?_⟩
        simp only [Layer.over, hl.capacity.eq_none hm, Option.getD]
    · cases h

/-! ## Files -/

/-- A file is read as text, the text as a document, and the document sets the fields of a layer. -/
def Layer.Written (tree : FileTree) (path : Path) (layer : Layer) : Prop :=
  ∃ text entries, readText tree path = .ok text ∧ Toml.readDocument text = some entries ∧
    Toml.Distinct entries ∧ layer.Of entries

theorem exists_layer_of_load {tree : FileTree} {path : Path} {config : Config}
    (h : load tree path = .ok config) :
    ∃ layer : Layer, layer.Written tree path ∧ config = layer.over standard := by
  rw [load] at h
  split at h
  · cases h
  · rename_i text ht
    split at h
    · cases h
    · rename_i loaded hd
      cases h
      rw [ofDocument] at hd
      split at hd
      · cases hd
      · rename_i entries he
        split at hd
        · rename_i result hs
          cases hd
          have distinct := Toml.distinct_readDocument he
          have hp : (visitOrder entries).Perm entries := List.mergeSort_perm entries _
          have hv : Toml.Distinct (visitOrder entries) := (hp.map Prod.fst).nodup_iff.mpr distinct
          obtain ⟨layer, hl, hc⟩ := exists_layer_of_setAll hv hs
          exact ⟨layer, ⟨text, entries, ht, he, distinct, hl.perm hv hp.symm⟩, hc⟩
        · cases hd

end HandlerRegistry.Config
