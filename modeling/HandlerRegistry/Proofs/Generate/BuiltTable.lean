import HandlerRegistry.Proofs.Artifact.ModuleText
import HandlerRegistry.Proofs.Discovery.Collect
import HandlerRegistry.Proofs.Dispatch.Table
import HandlerRegistry.Proofs.Generate.Effect

/-! # The table that a generated module builds

What discovery sorted, what the capacity was widened to, what the two passes over the handlers wrote
and what the table does with it fit together: the statements of a written module, carried out in
order, displace nothing and leave a table of exactly the discovered handlers. -/

namespace HandlerRegistry
set_option autoImplicit false

open Artifact.RustModule (EntryPoint Statement statements)
open Dispatch (Table)

/-- The entry point that the handler of some name has to define. -/
def entryPoint (name : String) : EntryPoint := ⟨name, "process_" ++ name ++ "_request"⟩

/-- What a module enters for some handlers, in their order. -/
def entriesOf (handlers : List HandlerSource) : List (String × EntryPoint) :=
  (handlers.map (·.id.text)).map fun name => (name, entryPoint name)

theorem map_insertion (handlers : List HandlerSource) :
    handlers.map Artifact.RustModule.insertion =
      (entriesOf handlers).map fun entry => Statement.insert entry.1 entry.2 := by
  rw [entriesOf, List.map_map, List.map_map]
  rfl

theorem map_fst_entriesOf (handlers : List HandlerSource) :
    (entriesOf handlers).map Prod.fst = handlers.map (·.id.text) := by
  rw [entriesOf, List.map_map]
  exact List.map_id _

/-! ## Entering sorted handlers -/

theorem insertAll_entriesOf {handlers : List HandlerSource} {fresh : Table EntryPoint}
    (sorted : Discovery.Sorted handlers) (empty : fresh.entries = []) :
    (∀ displaced ∈ (fresh.insertAll (entriesOf handlers)).1, displaced = none) ∧
      (fresh.insertAll (entriesOf handlers)).2.entries = entriesOf handlers := by
  have hn : ((fresh.entries ++ entriesOf handlers).map Prod.fst).Nodup := by
    rw [empty, List.nil_append, map_fst_entriesOf, List.Nodup, List.pairwise_map]
    exact sorted.imp fun hab he => hab.ne (Identifier.eq_of_text he)
  have ha := Table.insertAll_of_nodup hn
  rw [empty, List.nil_append] at ha
  exact ha

/-- Some insertions, carried out on a reserved table, leave the given handlers and nothing else, each
under its name and with the entry point of that name. -/
structure Builds (inserts : List (String × EntryPoint)) (handlers : List HandlerSource)
    (slots : Nat) (fresh : Table EntryPoint) : Prop where
  displaces_none : ∀ displaced ∈ (fresh.insertAll inserts).1, displaced = none
  names : (fresh.insertAll inserts).2.names = handlers.map (·.id.text)
  size : (fresh.insertAll inserts).2.size = handlers.length
  capacity : (fresh.insertAll inserts).2.capacity.toNat = slots
  get? : ∀ name, (fresh.insertAll inserts).2.get? name =
    if name ∈ handlers.map (·.id.text) then some ⟨name, "process_" ++ name ++ "_request"⟩ else none

theorem builds_entriesOf {handlers : List HandlerSource} {fresh : Table EntryPoint} {slots : Nat}
    (sorted : Discovery.Sorted handlers) (reserved : Table.ofSlots? slots = some fresh) :
    Builds (entriesOf handlers) handlers slots fresh := by
  obtain ⟨empty, hc⟩ := Table.ofSlots?_eq_some reserved
  obtain ⟨hnone, he⟩ := insertAll_entriesOf sorted empty
  refine ⟨hnone, ?_, ?_, ?_, fun name => ?_⟩
  · rw [Table.names_of_pairwise, he, map_fst_entriesOf]
    rw [he, map_fst_entriesOf, List.pairwise_map]
    exact sorted
  · rw [Table.size, he, entriesOf, List.length_map, List.length_map]
  · rw [Table.capacity_insertAll, hc]
  · rw [Table.get?, he, entriesOf]
    exact Keyed.lookup_map entryPoint _ name

/-! ## From the tree to the table -/

/-- The text that a successful run leaves as its artifact: what was read there if nothing was to be
done, and else what the entry of the output path holds. -/
def LeavesText (config : Config) (tree : FileTree) (report : Report) (text : String) : Prop :=
  (report.outcome = .unchanged →
      (generate config tree).2.fileContent config.output = .ok (Utf8.encode text)) ∧
    (report.outcome = .written → ∃ place mode, tree.entryPlace config.output = .ok place ∧
      (generate config tree).2.lookup place = some (.file (Utf8.encode text) mode .owner))

theorem written_text {config : Config} {tree : FileTree} {report : Report} {text : String}
    (h : Artifact.write tree config.output (Utf8.encode text) =
      (.ok report.outcome, (generate config tree).2)) : LeavesText config tree report text := by
  rw [LeavesText]
  obtain ⟨hu, hf, ha⟩ | ⟨hu, name, directory, hr⟩ := Artifact.write_cases h
  · rw [hu, ha]
    exact ⟨fun _ => hf, fun e => (nomatch e)⟩
  · rw [hu]
    exact ⟨fun e => (nomatch e), fun _ => ⟨_, _, hr.entryPlace, hr.lookup_self⟩⟩

/-- What a module says and does that a run leaves. -/
structure ModuleEffect (config : Config) (tree : FileTree) (report : Report) (text : String)
    (names : List String) (slots : Nat) (inserts : List (String × EntryPoint)) : Prop where
  left : LeavesText config tree report text
  statements_eq : statements text = .names names :: .reserve slots ::
    inserts.map (fun entry => Statement.insert entry.1 entry.2)
  names_eq : names = report.handlers.map (·.id.text)
  slots_eq : slots = config.capacity.resolve report.handlers.length
  fits : report.handlers.length ≤ slots
  builds : ∀ fresh : Table EntryPoint, Table.ofSlots? slots = some fresh →
    Builds inserts report.handlers slots fresh

/-- The module that a successful run writes reads as one list of names, one reservation of slots and
a number of insertions. Carried out on the reserved table, these displace nothing, and leave exactly
the discovered handlers, each under its name and with the entry point of that name. -/
theorem rust_module_builds_table (config : Config) (tree : FileTree) (report : Report)
    (kind : config.artifactKind = .rustModule) (h : (generate config tree).1 = .ok report) :
    discover tree config.inputDir = .ok report.handlers ∧
      ∃ text names slots inserts, ModuleEffect config tree report text names slots inserts := by
  obtain ⟨text, run⟩ := generate_ok h
  obtain ⟨place, -, -, sorted, -⟩ := discover_ok run.found
  have ht := run.rendered
  rw [run.kind, kind] at ht
  have hs := Artifact.RustModule.statements_render ht
  rw [map_insertion] at hs
  exact ⟨run.found, text, _, report.capacity, entriesOf report.handlers, {
    left := written_text run.wrote
    statements_eq := hs
    names_eq := rfl
    slots_eq := run.capacity
    fits := run.capacity ▸ Capacity.le_resolve _ _
    builds := fun fresh reserved => builds_entriesOf sorted reserved }⟩

/-! ### Fewer slots asked for than there are handlers -/

/-- A Rust module without slots, in the place of a link. -/
def Sample.narrow : Config where
  inputDir := Path.ofText "protocols"
  output := Path.ofText "protocols.h"
  kind := some .rustModule
  capacity := .fixed 0

theorem narrow_module_builds_table :
    Sample.narrow.artifactKind = .rustModule ∧
      (generate Sample.narrow (Sample.tree (.link (Path.ofText "protocols")))).1 =
        .ok ⟨[⟨⟨"http", by decide⟩, Path.ofText "protocols/http.c"⟩], .rustModule, 1,
          Path.ofText "protocols.h", .written⟩ ∧
      ∃ inserts, ((Table.mk [] 1 List.nodup_nil).insertAll inserts).2.names = ["http"] ∧
        ((Table.mk [] 1 List.nodup_nil).insertAll inserts).2.get? "http" =
          some (EntryPoint.mk "http" "process_http_request") ∧
        ((Table.mk [] 1 List.nodup_nil).insertAll inserts).2.get? "smtp" = none := by
  have hg : (generate Sample.narrow (Sample.tree (.link (Path.ofText "protocols")))).1 =
      .ok ⟨[⟨⟨"http", by decide⟩, Path.ofText "protocols/http.c"⟩], .rustModule, 1,
        Path.ofText "protocols.h", .written⟩ := by decide +kernel
  obtain ⟨-, text, names, slots, inserts, effect⟩ := rust_module_builds_table _ _ _ rfl hg
  obtain rfl := effect.slots_eq
  have built := effect.builds (Table.mk [] 1 List.nodup_nil) rfl
  refine ⟨rfl, hg, inserts, built.names, ?_, ?_⟩
  · rw [built.get?]
    rfl
  · rw [built.get?]
    rfl

end HandlerRegistry
