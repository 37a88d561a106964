import HandlerRegistry.Proofs.Artifact.HeaderText
import HandlerRegistry.Proofs.Discovery.Exact
import HandlerRegistry.Proofs.Generate.ModulePaths
import Mathlib.Data.Set.Basic

/-! # A header depends on the names of the handlers only

Discovery sorts what it finds, so that the identifiers of its handlers are determined by the set of
them (`map_id_eq_iff_namesIn`). A header holds nothing of a handler but the identifier. Hence two
headers with the same capacity are equal exactly if the two handler directories name the same set,
wherever the directories are, whatever the entries hold and wherever the headers are written. -/

namespace HandlerRegistry
set_option autoImplicit false

/-! ## The set of names of a directory -/

namespace Discovery

/-- The identifiers that the visible entries of a directory denote. -/
def namesIn (tree : FileTree) (directory : Path) : Set Identifier :=
  {id | ∃ place name, tree.resolveDirectory directory = .ok place ∧ Visible tree place name ∧
    Denotes (tree.isDirectory (directory.join name)) name id}

theorem mem_namesIn_iff {tree : FileTree} {directory : Path} {handlers : List HandlerSource}
    (h : discover tree directory = .ok handlers) {id : Identifier} :
    id ∈ namesIn tree directory ↔ id ∈ handlers.map HandlerSource.id := by
  obtain ⟨place, listed, -⟩ := discover_ok h
  obtain ⟨order, -, hv, hr⟩ := represents_of_discover listed h
  rw [List.mem_map]
  constructor
  · rintro ⟨other, name, ho, hn, hd⟩
    rw [listed] at ho
    obtain rfl := Except.ok.inj ho
    obtain ⟨source, hs, hsn, -⟩ := exists_source_of_visible listed h hn
    exact ⟨source, hs, hsn.unique hd⟩
  · rintro ⟨source, hs, rfl⟩
    obtain ⟨i, hi, rfl⟩ := List.getElem_of_mem hs
    obtain ⟨hd, -⟩ := hr.get hi (hr.length_eq ▸ hi)
    exact ⟨place, order.get ⟨i, hr.length_eq ▸ hi⟩, listed, (hv _).mp (List.getElem_mem _), hd⟩

/-- Two sorted lists of handlers that have the same identifiers have them in the same order. -/
theorem Sorted.map_id_eq {handlers others : List HandlerSource} (sorted : Sorted handlers)
    (hs : Sorted others)
    (same : ∀ id, id ∈ handlers.map HandlerSource.id ↔ id ∈ others.map HandlerSource.id) :
    handlers.map HandlerSource.id = others.map HandlerSource.id := by
  have hp := (List.perm_ext_iff_of_nodup sorted.nodup_ids hs.nodup_ids).mpr same
  refine List.Perm.eq_of_pairwise (fun x y _ _ hxy hyx => ?_) (List.pairwise_map.mpr sorted)
    (List.pairwise_map.mpr hs) hp
  exact absurd rfl (Identifier.Before.trans hxy hyx).ne

theorem map_id_eq_iff_namesIn {tree other : FileTree} {directory otherDirectory : Path}
    {handlers others : List HandlerSource} (h : discover tree directory = .ok handlers)
    (ho : discover other otherDirectory = .ok others) :
    handlers.map HandlerSource.id = others.map HandlerSource.id ↔
      namesIn tree directory = namesIn other otherDirectory := by
  rw [Set.ext_iff]
  simp only [mem_namesIn_iff h, mem_namesIn_iff ho]
  refine ⟨fun he id => by rw [he], fun same => ?_⟩
  obtain ⟨-, -, -, sorted, -⟩ := discover_ok h
  obtain ⟨-, -, -, hs, -⟩ := discover_ok ho
  exact sorted.map_id_eq hs same

end Discovery

/-! ## The text of a header -/

/-- A run leaves one text at most. -/
theorem LeavesText.unique {config : Config} {tree : FileTree} {report : Report} {a b : String}
    (ha : LeavesText config tree report a) (hb : LeavesText config tree report b) : a = b := by
  apply Utf8.encode_injective
  cases ho : report.outcome with
  | unchanged => exact Except.ok.inj ((ha.1 ho).symm.trans (hb.1 ho))
  | written =>
    obtain ⟨place, mode, hp, hl⟩ := ha.2 ho
    obtain ⟨other, otherMode, hq, hm⟩ := hb.2 ho
    rw [hp] at hq
    obtain rfl := Except.ok.inj hq
    exact (Node.file.inj (Option.some.inj (hl.symm.trans hm))).1

/-- The header for some handlers. -/
def headerText (handlers : List HandlerSource) (capacity : Nat) : String :=
  Artifact.CHeader.template.assemble (handlers.map Artifact.CHeader.declaration) handlers capacity

theorem headerText_eq_iff {handlers others : List HandlerSource} {capacity other : Nat} :
    headerText handlers capacity = headerText others other ↔
      handlers.map HandlerSource.id = others.map HandlerSource.id ∧ capacity = other := by
  constructor
  · intro he
    have hr := Artifact.CHeader.readsAs_assemble handlers capacity
    rw [← headerText, he] at hr
    exact hr.unique (Artifact.CHeader.readsAs_assemble others other)
  · rintro ⟨hids, rfl⟩
    exact Artifact.CHeader.assemble_congr hids capacity

/-- A run that makes a header leaves the one for its handlers and its capacity, and nothing else. -/
theorem leavesText_iff_header {config : Config} {tree : FileTree} {report : Report}
    (kind : config.artifactKind = .cHeader) (h : (generate config tree).1 = .ok report)
    {text : String} : LeavesText config tree report text ↔
      text = headerText report.handlers (config.capacity.resolve report.handlers.length) := by
  obtain ⟨rendered, run⟩ := generate_ok h
  have hl : LeavesText config tree report rendered := written_text run.wrote
  have ht := run.rendered
  rw [run.kind, kind, run.capacity] at ht
  obtain rfl := Except.ok.inj ((Artifact.CHeader.render_eq _ _ _).symm.trans ht)
  exact ⟨fun hleft => hleft.unique hl, fun he => he ▸ hl⟩

/-- Two runs that make headers of the same capacity leave one text each. The texts are equal if and
only if the visible entries of the two handler directories denote the same set of identifiers. -/
theorem header_determined_by_names (config other : Config) (tree otherTree : FileTree)
    (report otherReport : Report) (kind : config.artifactKind = .cHeader)
    (otherKind : other.artifactKind = .cHeader) (capacity : config.capacity = other.capacity)
    (h : (generate config tree).1 = .ok report)
    (ho : (generate other otherTree).1 = .ok otherReport) :
    ∃ text otherText,
      (∀ left, LeavesText config tree report left ↔ left = text) ∧
      (∀ left, LeavesText other otherTree otherReport left ↔ left = otherText) ∧
      (text = otherText ↔ Discovery.namesIn tree config.inputDir =
        Discovery.namesIn otherTree other.inputDir) := by
  obtain ⟨_, run⟩ := generate_ok h
  obtain ⟨_, otherRun⟩ := generate_ok ho
  refine ⟨_, _, fun left => leavesText_iff_header kind h,
    fun left => leavesText_iff_header otherKind ho, ?_⟩
  rw [headerText_eq_iff, ← Discovery.map_id_eq_iff_namesIn run.found otherRun.found]
  refine ⟨And.left, fun hids => ⟨hids, ?_⟩⟩
  -- As many names make as many slots.
  have hl : report.handlers.length = otherReport.handlers.length := by
    simpa only [List.length_map] using congrArg List.length hids
  rw [capacity, hl]

/-! ### A file and a directory of the same name -/

namespace Sample

def store : Name := ⟨Utf8.encode "store", by decide⟩
def folder : Name := ⟨Utf8.encode "http", rfl⟩
def note : Name := ⟨Utf8.encode ".note", by decide⟩

/-- A working directory whose handler is a directory that holds a file, beside a hidden entry. -/
def renamed : FileTree where
  entries := [([project], .directory), ([store, project], .directory),
    ([note, store, project], .link (Path.ofText "nowhere")), ([folder, store, project], .directory),
    ([handler, folder, store, project], .file [0] 0o600 .owner)]
  home := [project]
  privileged := false
  distinct := by
    simp only [List.map_cons, List.map_nil]
    decide

/-- A header named as wanted, of another directory. -/
def named : Config where
  inputDir := Path.ofText "./store/"
  output := Path.ofText "protocols.h"
  kind := some .cHeader
  capacity := .standard

end Sample

theorem header_of_directory_and_file :
    (generate .standard (Sample.tree (.link (Path.ofText "protocols")))).1 =
        .ok ⟨[⟨⟨"http", by decide⟩, Path.ofText "protocols/http.c"⟩], .cHeader, 64,
          Path.ofText "protocols.h", .written⟩ ∧
      (generate Sample.named Sample.renamed).1 =
        .ok ⟨[⟨⟨"http", by decide⟩, Path.ofText "./store/http"⟩], .cHeader, 64,
          Path.ofText "protocols.h", .written⟩ ∧
      ∃ text : String,
        (∀ left, LeavesText .standard (Sample.tree (.link (Path.ofText "protocols")))
          ⟨[⟨⟨"http", by decide⟩, Path.ofText "protocols/http.c"⟩], .cHeader, 64,
            Path.ofText "protocols.h", .written⟩ left ↔ left = text) ∧
        ∀ left, LeavesText Sample.named Sample.renamed
          ⟨[⟨⟨"http", by decide⟩, Path.ofText "./store/http"⟩], .cHeader, 64,
            Path.ofText "protocols.h", .written⟩ left ↔ left = text := by
  have hg : (generate .standard (Sample.tree (.link (Path.ofText "protocols")))).1 =
      .ok ⟨[⟨⟨"http", by decide⟩, Path.ofText "protocols/http.c"⟩], .cHeader, 64,
        Path.ofText "protocols.h", .written⟩ := by decide +kernel
  have ho : (generate Sample.named Sample.renamed).1 =
      .ok ⟨[⟨⟨"http", by decide⟩, Path.ofText "./store/http"⟩], .cHeader, 64,
        Path.ofText "protocols.h", .written⟩ := by decide +kernel
  obtain ⟨text, otherText, hl, hol, hiff⟩ :=
    header_determined_by_names _ _ _ _ _ _ (by decide +kernel) (by decide +kernel)
      (by decide +kernel) hg ho
  obtain ⟨_, run⟩ := generate_ok hg
  obtain ⟨_, otherRun⟩ := generate_ok ho
  obtain rfl : text = otherText :=
    hiff.mpr ((Discovery.map_id_eq_iff_namesIn run.found otherRun.found).mp rfl)
  exact ⟨hg, ho, text, hl, hol⟩

end HandlerRegistry
