import HandlerRegistry.Proofs.Capacity
import HandlerRegistry.Proofs.Config.Layer
import HandlerRegistry.Proofs.Toml.Lines
import HandlerRegistry.Proofs.Toml.Spelling
import HandlerRegistry.Text.Utf8.Lemmas

/-! # Documents say what is written in them

Whatever of the four keys are written, in whatever order and spelling, the document is accepted and
sets just these fields to what is written. One more line with any other bare key makes it refused, and
the refusal depends on that line and on the numbers that are written, but not on the order of the
lines (`written_document_decodes`). -/

namespace HandlerRegistry.Config
set_option autoImplicit false

/-! ## What is written -/

/-- The word of a kind, written as a string. -/
structure WrittenKind where
  kind : Artifact.Kind
  word : Toml.QuotedString
  names : word.text = kind.word

/-- A capacity, written as an integer or as a string. -/
inductive WrittenCapacity where
  | slots (count : UInt64) (written : List Char) (writes : Toml.IsInteger written count.toNat)
  | word (capacity : Capacity) (string : Toml.QuotedString)
      (accepted : Capacity.parse string.text = .ok capacity)

def WrittenCapacity.capacity : WrittenCapacity → Capacity
  | .slots count _ _ => .fixed count
  | .word capacity _ _ => capacity

/-- A field with the way in which its value is written. -/
inductive Setting where
  | inputDir (path : Toml.BasicString)
  | output (path : Toml.BasicString)
  | kind (named : WrittenKind)
  | capacity (amount : WrittenCapacity)

/-- The keys of the fields. -/
def fields : List String := ["input-dir", "output", "kind", "capacity"]

namespace Setting

def key : Setting → String
  | .inputDir _ => "input-dir"
  | .output _ => "output"
  | .kind _ => "kind"
  | .capacity _ => "capacity"

def written : Setting → List Char
  | .inputDir path => path.written
  | .output path => path.written
  | .kind named => named.word.written
  | .capacity (.slots _ written _) => written
  | .capacity (.word _ string _) => string.written

/-- The line of a setting. -/
def line (setting : Setting) : Toml.Line := ⟨setting.key, setting.written⟩

def value : Setting → Toml.Value
  | .inputDir path => .string path.text
  | .output path => .string path.text
  | .kind named => .string named.word.text
  | .capacity (.slots count _ _) => .integer count.toNat
  | .capacity (.word _ string _) => .string string.text

def entry (setting : Setting) : String × Toml.Value := (setting.key, setting.value)

theorem valueScan_written (setting : Setting) (depth : Nat) :
    Toml.valueScan depth setting.written = some (setting.value, []) := by
  match setting with
  | .inputDir path => exact path.valueScan_written depth
  | .output path => exact path.valueScan_written depth
  | .kind named => exact named.word.valueScan_written depth
  | .capacity (.slots _ _ writes) => exact writes.valueScan depth
  | .capacity (.word _ string _) => exact string.valueScan_written depth

theorem pair?_line (setting : Setting) : setting.line.pair? = some setting.entry :=
  Toml.Line.pair?_eq_some_iff.mpr ⟨rfl, [], setting.valueScan_written _⟩

theorem key_mem_fields (setting : Setting) : setting.key ∈ fields := by
  cases setting <;> simp [key, fields]

theorem wellFormed_line (setting : Setting) : setting.line.WellFormed := by
  have hk : ∀ key ∈ fields, key.toList ≠ [] ∧ key.toList.all Toml.isBareKeyChar = true := by
    decide
  exact ⟨hk _ setting.key_mem_fields, 0, setting.value, setting.valueScan_written 0⟩

end Setting

section
variable {path : Toml.BasicString} {named : WrittenKind} {amount : WrittenCapacity}

theorem readKind_written :
    readKind (Setting.kind named).value = .ok named.kind := by
  rw [Setting.value, readKind, readKindWord, Artifact.Kind.ofWord?_eq_some_iff.mpr named.names]

theorem readCapacity_string_iff {text : String} {capacity : Capacity} :
    readCapacity (.string text) = .ok capacity ↔ Capacity.parse text = .ok capacity := by
  rw [readCapacity]
  cases Capacity.parse text <;> simp

theorem readCapacity_integer_iff {written : Int} {capacity : Capacity} :
    readCapacity (.integer written) = .ok capacity ↔
      ∃ slots : UInt64, written = slots.toNat ∧ capacity = .fixed slots := by
  have hs : ∀ slots : UInt64, slotsOfInt written = some slots ↔ written = slots.toNat := by
    intro slots
    unfold slotsOfInt
    split
    · simp only [reduceCtorEq, false_iff]
      omega
    · rw [Text.word64?_eq_some_iff]
      omega
  simp only [← hs, readCapacity]
  cases slotsOfInt written with
  | none => simp
  | some slots => simp [eq_comm]

theorem readCapacity_written :
    readCapacity (Setting.capacity amount).value = .ok amount.capacity := by
  cases amount with
  | slots count written writes => exact readCapacity_integer_iff.mpr ⟨count, rfl, rfl⟩
  | word capacity string accepted => exact readCapacity_string_iff.mpr accepted

end

/-- A setting can be put over every configuration. -/
theorem Setting.exists_set (setting : Setting) (config : Config) :
    ∃ next, config.set setting.key setting.value = .ok next := by
  cases setting with
  | inputDir path => exact ⟨_, rfl⟩
  | output path => exact ⟨_, rfl⟩
  | kind named =>
    refine ⟨{ config with kind := some named.kind }, ?_⟩
    show (readKind (kind named).value).map (fun kind => { config with kind := some kind }) = _
    rw [readKind_written]
    rfl
  | capacity amount =>
    refine ⟨{ config with capacity := amount.capacity }, ?_⟩
    show (readCapacity (capacity amount).value).map
      (fun capacity => { config with capacity := capacity }) = _
    rw [readCapacity_written]
    rfl

/-- What is written of the four fields. -/
structure Writing where
  inputDir : Option Toml.BasicString
  output : Option Toml.BasicString
  kind : Option WrittenKind
  capacity : Option WrittenCapacity

namespace Writing

/-- The settings of a document, in one of their orders. -/
def settings (writing : Writing) : List Setting :=
  writing.inputDir.toList.map .inputDir ++ writing.output.toList.map .output ++
    writing.kind.toList.map .kind ++ writing.capacity.toList.map .capacity

def layer (writing : Writing) : Layer where
  inputDir := writing.inputDir.map fun path => Path.ofText path.text
  output := writing.output.map fun path => Path.ofText path.text
  kind := writing.kind.map WrittenKind.kind
  capacity := writing.capacity.map WrittenCapacity.capacity

theorem nodup_keys (writing : Writing) : (writing.settings.map Setting.key).Nodup := by
  have hs : ∀ {α : Type} (value? : Option α) (make : α → Setting) (key : String),
      (∀ value, (make value).key = key) →
        ((value?.toList.map make).map Setting.key).Sublist [key] := by
    intro α value? make key hk
    cases value? with
    | none => exact List.nil_sublist _
    | some value =>
      show [(make value).key].Sublist [key]
      rw [hk]
  have hall : (writing.settings.map Setting.key).Sublist
      (["input-dir"] ++ ["output"] ++ ["kind"] ++ ["capacity"]) := by
    simp only [settings, List.map_append]
    exact (((hs writing.inputDir .inputDir _ fun _ => rfl).append
      (hs writing.output .output _ fun _ => rfl)).append
        (hs writing.kind .kind _ fun _ => rfl)).append
          (hs writing.capacity .capacity _ fun _ => rfl)
  exact hall.nodup (by decide)

theorem layer_of (writing : Writing) : writing.layer.Of (writing.settings.map Setting.entry) := by
  obtain ⟨inputDir, output, kind, capacity⟩ := writing
  refine ⟨?_, ?_, ?_, ?_⟩
  · cases inputDir with
    | none => cases output <;> cases kind <;> cases capacity <;> exact .absent rfl
    | some path => exact .present rfl rfl
  · cases output with
    | none => cases inputDir <;> cases kind <;> cases capacity <;> exact .absent rfl
    | some path => cases inputDir <;> exact .present rfl rfl
  · cases kind with
    | none => cases inputDir <;> cases output <;> cases capacity <;> exact .absent rfl
    | some named => cases inputDir <;> cases output <;> exact .present rfl readKind_written
  · cases capacity with
    | none => cases inputDir <;> cases output <;> cases kind <;> exact .absent rfl
    | some amount =>
      cases inputDir <;> cases output <;> cases kind <;>
        exact .present rfl readCapacity_written

end Writing

/-! ## Entries put over the standard configuration -/

section
variable {entries : Toml.Entries} {config : Config}

theorem exists_setAll (h : ∀ entry ∈ entries, ∀ config : Config,
    ∃ next, config.set entry.1 entry.2 = .ok next) : ∃ result, config.setAll entries = .ok result := by
  induction entries generalizing config with
  | nil => exact ⟨config, rfl⟩
  | cons entry entries ih =>
    obtain ⟨he, hr⟩ := List.forall_mem_cons.mp h
    obtain ⟨next, hn⟩ := he config
    rw [setAll, hn]
    exact ih hr

theorem set_unknown {key : String} (h : key ∉ fields) (config : Config) (value : Toml.Value) :
    config.set key value = .error (.unknownField key) := by
  simp only [fields, List.mem_cons, List.not_mem_nil, or_false, not_or] at h
  obtain ⟨hi, ho, hk, hc⟩ := h
  rw [set, if_neg hi, if_neg ho, if_neg hk, if_neg hc]

theorem setAll_unknown {before after : Toml.Entries} {key : String} {value : Toml.Value}
    (h : ∀ entry ∈ before, ∀ config : Config, ∃ next, config.set entry.1 entry.2 = .ok next)
    (hk : key ∉ fields) :
    config.setAll (before ++ (key, value) :: after) = .error (.unknownField key) := by
  induction before generalizing config with
  | nil => rw [List.nil_append, setAll, set_unknown hk]
  | cons entry before ih =>
    obtain ⟨he, hr⟩ := List.forall_mem_cons.mp h
    obtain ⟨next, hn⟩ := he config
    rw [List.cons_append, setAll, hn]
    exact ih hr

end

theorem Layer.Of.unique {entries : Toml.Entries} {layer other : Layer} (h : layer.Of entries)
    (ho : other.Of entries) : layer = other := by
  obtain ⟨inputDir, output, kind, capacity⟩ := layer
  obtain rfl := h.inputDir.unique ho.inputDir
  obtain rfl := h.output.unique ho.output
  obtain rfl := h.kind.unique ho.kind
  obtain rfl := h.capacity.unique ho.capacity
  rfl

theorem anyEntryExcessive_eq_any (entries : Toml.Entries) :
    Toml.Value.anyEntryExcessive entries = entries.any fun entry => entry.2.isExcessive := by
  induction entries with
  | nil => rw [Toml.Value.anyEntryExcessive, List.any_nil]
  | cons entry entries ih => rw [Toml.Value.anyEntryExcessive, ih, List.any_cons]

/-! ## Documents -/

theorem mapM_pair?_lines (order : List Setting) :
    (order.map Setting.line).mapM Toml.Line.pair? = some (order.map Setting.entry) := by
  rw [mapM_eq_some_iff, List.map_map, List.map_map]
  exact List.map_congr_left fun setting _ => setting.pair?_line

theorem wellFormed_lines (order : List Setting) :
    ∀ line ∈ order.map Setting.line, line.WellFormed := by
  rw [List.forall_mem_map]
  exact fun setting _ => setting.wellFormed_line

theorem visitOrder_perm (entries : Toml.Entries) : (visitOrder entries).Perm entries :=
  List.mergeSort_perm entries _

theorem ofDocument_settings {writing : Writing} {order : List Setting}
    (perm : order.Perm writing.settings) :
    ofDocument (Toml.Line.document (order.map Setting.line)) =
      .ok (writing.layer.over standard) := by
  have hkeys : (order.map Setting.key).Nodup :=
    (perm.map Setting.key).nodup_iff.mpr writing.nodup_keys
  have hread : Toml.readDocument (Toml.Line.document (order.map Setting.line)) =
      some (order.map Setting.entry) := by
    rw [Toml.Line.readDocument_document (wellFormed_lines order), mapM_pair?_lines]
    rw [List.map_map]
    exact hkeys
  have distinct : Toml.Distinct (writing.settings.map Setting.entry) := by
    rw [Toml.Distinct, List.map_map]
    exact writing.nodup_keys
  have hvisit : (visitOrder (order.map Setting.entry)).Perm
      (writing.settings.map Setting.entry) :=
    (visitOrder_perm _).trans (perm.map Setting.entry)
  have hset : ∀ entry ∈ visitOrder (order.map Setting.entry), ∀ config : Config,
      ∃ next, config.set entry.1 entry.2 = .ok next := by
    intro entry hm
    obtain ⟨setting, -, rfl⟩ := List.mem_map.mp ((visitOrder_perm _).mem_iff.mp hm)
    exact setting.exists_set
  obtain ⟨result, hr⟩ : ∃ result, standard.setAll (visitOrder (order.map Setting.entry)) =
      .ok result := exists_setAll hset
  obtain ⟨layer, hl, rfl⟩ :=
    exists_layer_of_setAll ((hvisit.map Prod.fst).nodup_iff.mpr distinct) hr
  have he : layer = writing.layer := hl.unique (writing.layer_of.perm distinct hvisit)
  rw [ofDocument, hread]
  simp only [hr, he]

/-! ### One more key -/

/-- Why a document is refused for one more line: the key is unknown. But a refusal is accounted for
in terms of plain values, whose integers have 63 bits beside the sign. If the value or one of the
numbers written for the other keys is beyond these, the document is refused as no TOML, and nothing
is said of the key; this goes also for a capacity of `2 ^ 63` or more, which would be accepted
without the line. -/
def Writing.refusal (writing : Writing) (key : String) (value : List Char) : Refusal :=
  match Toml.valueScan Toml.maxDepth value with
  | none => .notToml
  | some (found, _) =>
    if found.isExcessive || writing.settings.any fun setting => setting.value.isExcessive then
      .notToml
    else .unknownField key

section
variable {writing : Writing} {key : String} {value : List Char} {before after : List Setting}

theorem Writing.not_mem_keys (hn : key ∉ fields) : key ∉ writing.settings.map Setting.key := by
  intro hm
  obtain ⟨setting, -, rfl⟩ := List.mem_map.mp hm
  exact hn setting.key_mem_fields

theorem nodup_keys_insert (hn : key ∉ writing.settings.map Setting.key)
    (perm : (before ++ after).Perm writing.settings) :
    (before.map Setting.key ++ key :: after.map Setting.key).Nodup := by
  have hp := perm.map Setting.key
  rw [List.nodup_middle, ← List.map_append, List.nodup_cons, hp.mem_iff, hp.nodup_iff]
  exact ⟨hn, writing.nodup_keys⟩

theorem readDocument_insert (hk : Toml.IsBareKey key) (hv : Toml.IsValue value)
    (hn : key ∉ writing.settings.map Setting.key) (perm : (before ++ after).Perm writing.settings) :
    Toml.readDocument (Toml.Line.document
      (before.map Setting.line ++ ⟨key, value⟩ :: after.map Setting.line)) =
        (Toml.Line.mk key value).pair?.map fun entry =>
          before.map Setting.entry ++ entry :: after.map Setting.entry := by
  have hwell : ∀ line ∈ before.map Setting.line ++ ⟨key, value⟩ :: after.map Setting.line,
      line.WellFormed :=
    List.forall_mem_append.mpr ⟨wellFormed_lines before,
      List.forall_mem_cons.mpr ⟨⟨hk, hv⟩, wellFormed_lines after⟩⟩
  have hkeys : ((before.map Setting.line ++ ⟨key, value⟩ :: after.map Setting.line).map
      Toml.Line.key).Nodup := by
    rw [List.map_append, List.map_cons, List.map_map, List.map_map]
    exact nodup_keys_insert hn perm
  rw [Toml.Line.readDocument_document hwell hkeys]
  cases hs : (Toml.Line.mk key value).pair? with
  | none =>
    rw [Option.map_none, Option.eq_none_iff_forall_ne_some]
    intro entries he
    rw [mapM_eq_some_iff, List.map_append, List.map_cons, hs] at he
    have hnone : none ∈ entries.map some := he ▸ List.mem_append_right _ List.mem_cons_self
    obtain ⟨entry, -, hc⟩ := List.mem_map.mp hnone
    cases hc
  | some entry =>
    have hl := fun order => mapM_eq_some_iff.mp (mapM_pair?_lines order)
    rw [Option.map_some, mapM_eq_some_iff, List.map_append, List.map_cons, List.map_append,
      List.map_cons, hl, hl, hs]

/-- Wherever the one key that cannot be used is visited, the entries are refused for it. -/
theorem setAll_visitOrder_unknown (hn : key ∉ fields)
    (perm : (before ++ after).Perm writing.settings) (found : Toml.Value) :
    standard.setAll (visitOrder
      (before.map Setting.entry ++ (key, found) :: after.map Setting.entry)) =
        .error (.unknownField key) := by
  have hvisit := visitOrder_perm
    (before.map Setting.entry ++ (key, found) :: after.map Setting.entry)
  have hm := hvisit.mem_iff.mpr (List.mem_append_right _ List.mem_cons_self)
  obtain ⟨first, last, hs⟩ := List.append_of_mem hm
  rw [hs] at hvisit ⊢
  have hd : ((first ++ (key, found) :: last).map Prod.fst).Nodup := by
    rw [(hvisit.map Prod.fst).nodup_iff, List.map_append, List.map_cons, List.map_map,
      List.map_map]
    exact nodup_keys_insert (Writing.not_mem_keys hn) perm
  refine setAll_unknown (fun entry he => ?_) hn
  rw [List.map_append, List.map_cons, List.nodup_middle, List.nodup_cons] at hd
  have hne : entry ≠ (key, found) := by
    rintro rfl
    exact hd.1 (List.mem_append_left _ (List.mem_map_of_mem he))
  have hin := hvisit.mem_iff.mp (List.mem_append_left _ he)
  rw [List.mem_append, List.mem_cons, List.mem_map, List.mem_map] at hin
  obtain ⟨setting, -, rfl⟩ | rfl | ⟨setting, -, rfl⟩ := hin
  · exact setting.exists_set
  · exact absurd rfl hne
  · exact setting.exists_set

theorem anyEntryExcessive_insert (perm : (before ++ after).Perm writing.settings)
    (found : Toml.Value) : Toml.Value.anyEntryExcessive
      (before.map Setting.entry ++ (key, found) :: after.map Setting.entry) =
        (found.isExcessive || writing.settings.any fun setting => setting.value.isExcessive) := by
  have hp : (before.map Setting.entry ++ (key, found) :: after.map Setting.entry).Perm
      ((key, found) :: (before.map Setting.entry ++ after.map Setting.entry)) := List.perm_middle
  rw [anyEntryExcessive_eq_any, hp.any_eq, List.any_cons, ← List.map_append, List.any_map,
    perm.any_eq]
  rfl

theorem ofDocument_unknown (hk : Toml.IsBareKey key) (hn : key ∉ fields) (hv : Toml.IsValue value)
    (perm : (before ++ after).Perm writing.settings) :
    ofDocument (Toml.Line.document
      (before.map Setting.line ++ ⟨key, value⟩ :: after.map Setting.line)) =
        .error (writing.refusal key value) := by
  rw [ofDocument, readDocument_insert hk hv (Writing.not_mem_keys hn) perm, Writing.refusal,
    Toml.Line.pair?]
  cases Toml.valueScan Toml.maxDepth value with
  | none => rfl
  | some read =>
    obtain ⟨found, left⟩ := read
    simp only [Option.map_some, setAll_visitOrder_unknown hn perm, anyEntryExcessive_insert perm]

end

/-! ## Files -/

section
variable {tree : FileTree} {path : Path} {text : String}

theorem readText_of_content (h : tree.fileContent path = .ok (Utf8.encode text)) :
    readText tree path = .ok text := by
  rw [readText, h]
  simp only [Utf8.decode?_encode]

theorem load_of_ok {config : Config} (h : tree.fileContent path = .ok (Utf8.encode text))
    (hd : ofDocument text = .ok config) : load tree path = .ok config := by
  simp only [load, readText_of_content h, hd]

theorem load_of_error {refusal : Refusal} (h : tree.fileContent path = .ok (Utf8.encode text))
    (hd : ofDocument text = .error refusal) :
    load tree path = .error (.invalidConfig path refusal) := by
  simp only [load, readText_of_content h, hd]

end

/-- A document of lines for some of the keys is accepted, in every order of the lines and in every
spelling of the values, and makes the configuration that has the written values in its fields and
standard values elsewhere. One more line with another bare key and any value makes the document
refused; for which reason depends on what the lines say, but not on their order. -/
theorem written_document_decodes (writing : Writing) (tree : FileTree) (path : Path) :
    (∀ order : List Setting, order.Perm writing.settings →
      tree.fileContent path =
          .ok (Utf8.encode (Toml.Line.document (order.map Setting.line))) →
        load tree path = .ok
          { inputDir := Path.ofText ((writing.inputDir.map Toml.BasicString.text).getD "protocols")
            output := Path.ofText ((writing.output.map Toml.BasicString.text).getD "protocols.h")
            kind := writing.kind.map WrittenKind.kind
            capacity := (writing.capacity.map WrittenCapacity.capacity).getD (.fixed 64) }) ∧
      ∀ (key : String) (value : List Char), Toml.IsBareKey key → key ∉ fields →
        Toml.IsValue value → ∀ before after : List Setting,
          (before ++ after).Perm writing.settings →
            tree.fileContent path = .ok (Utf8.encode (Toml.Line.document
              (before.map Setting.line ++ ⟨key, value⟩ :: after.map Setting.line))) →
              load tree path = .error (.invalidConfig path (writing.refusal key value)) := by
  constructor
  · intro order perm h
    rw [load_of_ok h (ofDocument_settings perm)]
    obtain ⟨inputDir, output, kind, capacity⟩ := writing
    cases inputDir <;> cases output <;> cases kind <;> cases capacity <;> rfl
  · intro key value hk hn hv before after perm h
    exact load_of_error h (ofDocument_unknown hk hn hv perm)

/-! ### A path with a quote, a kind in single quotes and the greatest capacity -/

namespace Sample

def room : Name := ⟨Utf8.encode "room", by decide⟩
def settingsFile : Name := ⟨Utf8.encode "room.toml", by decide⟩

/-- A working directory with a configuration file of some lines. -/
def holding (lines : List Toml.Line) : FileTree where
  entries := [([room], .directory),
    ([settingsFile, room], .file (Utf8.encode (Toml.Line.document lines)) 0o644 .owner)]
  home := [room]
  privileged := false
  distinct := by
    simp only [List.map_cons, List.map_nil]
    decide

def quoted : Toml.BasicString := .ofText "a\"b"

/-- The greatest number of slots, with an underscore between its digits. -/
def greatest : WrittenCapacity :=
  .slots 0xFFFFFFFFFFFFFFFF
    ([] ++ ['_'].intercalate ["18446744073".toList, "709551615".toList])
    (.decimal (.inl rfl) (by decide) (by decide +kernel))

def named : WrittenKind := ⟨.rustModule, .literal "rust-module" (by decide), rfl⟩

/-- All but the output. -/
def writing : Writing where
  inputDir := some quoted
  output := none
  kind := some named
  capacity := some greatest

/-- A table in an array. -/
def nested : List Char := ['[', '\x7b', 'a', ' ', '=', ' ', '1', '\x7d', ']']

end Sample

theorem greatest_capacity_decodes :
    load (Sample.holding (Sample.writing.settings.reverse.map Setting.line))
        (Path.ofText "room.toml") =
          .ok ⟨Path.ofText "a\"b", Path.ofText "protocols.h", some .rustModule,
            .fixed 0xFFFFFFFFFFFFFFFF⟩ ∧
      load (Sample.holding ([Setting.capacity Sample.greatest].map Setting.line ++
          ⟨"kinds", Sample.nested⟩ ::
            [Setting.kind Sample.named, .inputDir Sample.quoted].map Setting.line))
        (Path.ofText "room.toml") =
          .error (.invalidConfig (Path.ofText "room.toml")
            (Sample.writing.refusal "kinds" Sample.nested)) := by
  have hp := List.reverse_perm Sample.writing.settings
  have hk : Toml.IsBareKey "kinds" := ⟨by decide, by decide⟩
  have hv : Toml.IsValue Sample.nested := ⟨2, _, by rfl⟩
  obtain ⟨hload, -⟩ := written_document_decodes Sample.writing
    (Sample.holding (Sample.writing.settings.reverse.map Setting.line)) (Path.ofText "room.toml")
  obtain ⟨-, hrefuse⟩ := written_document_decodes Sample.writing
    (Sample.holding ([Setting.capacity Sample.greatest].map Setting.line ++
      ⟨"kinds", Sample.nested⟩ ::
        [Setting.kind Sample.named, .inputDir Sample.quoted].map Setting.line))
    (Path.ofText "room.toml")
  refine ⟨hload _ hp (by decide +kernel), ?_⟩
  exact hrefuse "kinds" Sample.nested hk (by decide) hv
    [.capacity Sample.greatest] [.kind Sample.named, .inputDir Sample.quoted] hp
    (by decide +kernel)

end HandlerRegistry.Config
