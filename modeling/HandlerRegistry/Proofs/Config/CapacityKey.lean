import HandlerRegistry.Proofs.Config.Written

/-! # The capacity in a document

Where all other keys of a document can be used, its capacity decides whether the document is
accepted, and the configuration has that capacity (`exists_load_iff`). Lines for the keys make such
a document, whatever is written as the capacity (`setsCapacity_of_lines`). -/

namespace HandlerRegistry.Config
set_option autoImplicit false

variable {tree : FileTree} {path : Path} {value : Toml.Value} {capacity : Capacity}

/-- The file holds a document that gives the capacity this value, and nothing else in the document
is a reason to refuse it. -/
def SetsCapacity (tree : FileTree) (path : Path) (value : Toml.Value) : Prop :=
  ∃ text entries, readText tree path = .ok text ∧ Toml.readDocument text = some entries ∧
    entries.lookup "capacity" = some value ∧
    ∀ entry ∈ entries, entry.1 ≠ "capacity" →
      ∃ next, standard.set entry.1 entry.2 = .ok next

/-! ## One key -/

/-- Whether a value can be used for a key does not depend on what is configured already. -/
theorem exists_set_of_set {config next : Config} {key : String}
    (h : config.set key value = .ok next) (other : Config) :
    ∃ next, other.set key value = .ok next := by
  have hm : ∀ {α : Type} {read : Except Refusal α} {change other : α → Config},
      read.map change = .ok next → ∃ next, read.map other = .ok next := by
    intro α read change other hr
    cases read with
    | error refusal => cases hr
    | ok result => exact ⟨other result, rfl⟩
  rw [set] at h ⊢
  split_ifs at h ⊢
  · exact hm h
  · exact hm h
  · exact hm h
  · exact hm h

theorem set_capacity (h : readCapacity value = .ok capacity) (config : Config) :
    config.set "capacity" value = .ok { config with capacity := capacity } := by
  show (readCapacity value).map (fun capacity => { config with capacity := capacity }) = _
  rw [h]
  rfl

theorem Says.exists_result {α : Type} {entries : Toml.Entries} {key : String}
    {read : Toml.Value → Except Refusal α} {result? : Option α} (h : Says entries key read result?)
    (hv : entries.lookup key = some value) :
    ∃ result, result? = some result ∧ read value = .ok result := by
  cases h with
  | absent hn => cases hn.symm.trans hv
  | present hs hr =>
    cases hs.symm.trans hv
    exact ⟨_, rfl, hr⟩

/-! ## The document -/

theorem SetsCapacity.readCapacity_of_load {config : Config} (h : SetsCapacity tree path value)
    (hl : load tree path = .ok config) : readCapacity value = .ok config.capacity := by
  obtain ⟨text, entries, ht, hd, hv, -⟩ := h
  obtain ⟨layer, ⟨text', entries', ht', hd', -, hof⟩, rfl⟩ := exists_layer_of_load hl
  cases ht.symm.trans ht'
  cases hd.symm.trans hd'
  obtain ⟨capacity, hc, hr⟩ := hof.capacity.exists_result hv
  rw [Layer.over, hc]
  exact hr

theorem SetsCapacity.exists_load (h : SetsCapacity tree path value)
    (hr : readCapacity value = .ok capacity) : ∃ config, load tree path = .ok config := by
  obtain ⟨text, entries, ht, hd, hv, hother⟩ := h
  have hset : ∀ entry ∈ visitOrder entries, ∀ config : Config,
      ∃ next, config.set entry.1 entry.2 = .ok next := by
    rintro ⟨key, found⟩ hm config
    have hin := (visitOrder_perm entries).mem_iff.mp hm
    by_cases hk : key = "capacity"
    · subst hk
      have hf := (Keyed.lookup_eq_some_iff _ _ _ (Toml.distinct_readDocument hd)).mpr hin
      cases hf.symm.trans hv
      exact ⟨_, set_capacity hr config⟩
    · obtain ⟨next, hn⟩ := hother _ hin hk
      exact exists_set_of_set hn config
  obtain ⟨config, hc⟩ : ∃ config, standard.setAll (visitOrder entries) = .ok config :=
    exists_setAll hset
  refine ⟨config, ?_⟩
  simp only [load, ht, ofDocument, hd, hc]

/-- The capacity alone decides about the document. -/
theorem SetsCapacity.exists_load_iff (h : SetsCapacity tree path value) (capacity : Capacity) :
    (∃ config, load tree path = .ok config ∧ config.capacity = capacity) ↔
      readCapacity value = .ok capacity := by
  constructor
  · rintro ⟨config, hl, rfl⟩
    exact h.readCapacity_of_load hl
  · intro hr
    obtain ⟨config, hl⟩ := h.exists_load hr
    have hc := h.readCapacity_of_load hl
    exact ⟨config, hl, Except.ok.inj (hc.symm.trans hr)⟩

/-! ## Lines -/

theorem setsCapacity_of_lines {writing : Writing} {before after : List Setting}
    {written : List Char} (hc : writing.capacity = none)
    (perm : (before ++ after).Perm writing.settings)
    (hv : ∀ depth, Toml.valueScan depth written = some (value, []))
    (h : tree.fileContent path = .ok (Utf8.encode (Toml.Line.document
      (before.map Setting.line ++ ⟨"capacity", written⟩ :: after.map Setting.line)))) :
    SetsCapacity tree path value := by
  have hk : Toml.IsBareKey "capacity" := ⟨by decide, by decide⟩
  have hn : "capacity" ∉ writing.settings.map Setting.key := by
    obtain ⟨inputDir, output, kind, capacity⟩ := writing
    cases hc
    cases inputDir <;> cases output <;> cases kind <;> simp [Writing.settings, Setting.key]
  have hd := readDocument_insert hk ⟨0, value, hv 0⟩ hn perm
  have hp : (Toml.Line.mk "capacity" written).pair? = some ("capacity", value) :=
    Toml.Line.pair?_eq_some_iff.mpr ⟨rfl, [], hv _⟩
  rw [hp, Option.map_some] at hd
  refine ⟨_, _, readText_of_content h, hd, ?_, ?_⟩
  · apply (Keyed.lookup_eq_some_iff _ _ _ (Toml.distinct_readDocument hd)).mpr
    exact List.mem_append_right _ List.mem_cons_self
  · intro entry hm hne
    rw [List.mem_append, List.mem_cons, List.mem_map, List.mem_map] at hm
    obtain ⟨setting, -, rfl⟩ | rfl | ⟨setting, -, rfl⟩ := hm
    · exact setting.exists_set standard
    · exact absurd rfl hne
    · exact setting.exists_set standard

end HandlerRegistry.Config
