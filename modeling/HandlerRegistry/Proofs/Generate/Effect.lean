import HandlerRegistry.CommandLine.Run
import HandlerRegistry.Proofs.Artifact.Replacement
import Mathlib.Control.Monad.Basic

/-! # What a run does to the tree

A run that fails leaves the tree as it was, at whatever stage it fails, and so does the whole
command. A run that succeeds reports what it found, and sets at most one entry: the one that the
output path names, a link at its end not followed. -/

namespace HandlerRegistry
set_option autoImplicit false

/-! ## The cases of a run -/

theorem renderArtifact_cases {config : Config} {tree : FileTree} {handlers : List HandlerSource}
    {text : String} (h : renderArtifact config tree = .ok (handlers, text)) :
    discover tree config.inputDir = .ok handlers ∧
      config.artifactKind.template.render tree handlers
        (config.capacity.resolve handlers.length) = .ok text := by
  rw [renderArtifact] at h
  cases hd : discover tree config.inputDir with
  | error failure => simp [hd] at h
  | ok found =>
    cases hr : config.artifactKind.template.render tree found
        (config.capacity.resolve found.length) with
    | error failure => simp [hd, hr] at h
    | ok rendered =>
      simp only [hd, hr, Except.ok.injEq, Prod.mk.injEq] at h
      obtain ⟨rfl, rfl⟩ := h
      exact ⟨rfl, hr⟩

theorem generate_error {config : Config} {tree : FileTree} {failure : Failure}
    (h : (generate config tree).1 = .error failure) : (generate config tree).2 = tree := by
  rw [generate] at h ⊢
  cases hr : renderArtifact config tree with
  | error failure => rfl
  | ok rendered =>
    obtain ⟨handlers, text⟩ := rendered
    cases hw : Artifact.write tree config.output (Utf8.encode text) with
    | mk result after =>
      cases result with
      | error failure =>
        simp only [hw]
        exact Artifact.write_error hw
      | ok outcome => simp [hr, hw] at h

/-- A run goes through its stages and ends with a report. The text is that of its artifact. -/
structure RunsTo (config : Config) (tree : FileTree) (report : Report) (text : String) :
    Prop where
  found : discover tree config.inputDir = .ok report.handlers
  kind : report.kind = config.artifactKind
  capacity : report.capacity = config.capacity.resolve report.handlers.length
  output : report.output = config.output
  rendered : report.kind.template.render tree report.handlers report.capacity = .ok text
  wrote : Artifact.write tree config.output (Utf8.encode text) =
    (.ok report.outcome, (generate config tree).2)

theorem generate_ok {config : Config} {tree : FileTree} {report : Report}
    (h : (generate config tree).1 = .ok report) : ∃ text, RunsTo config tree report text := by
  rw [generate] at h
  cases hr : renderArtifact config tree with
  | error failure => simp [hr] at h
  | ok rendered =>
    obtain ⟨handlers, text⟩ := rendered
    obtain ⟨hd, ht⟩ := renderArtifact_cases hr
    cases hw : Artifact.write tree config.output (Utf8.encode text) with
    | mk result after =>
      cases result with
      | error failure => simp [hr, hw] at h
      | ok outcome =>
        simp only [hr, hw, Except.ok.injEq] at h
        subst h
        exact ⟨text, {
          found := hd
          kind := rfl
          capacity := rfl
          output := rfl
          rendered := ht
          wrote := by simp only [generate, hr, hw] }⟩

theorem run_of_code_ne_zero {arguments : List CommandLine.Argument} {tree : FileTree}
    (h : (CommandLine.run arguments tree).1.code ≠ 0) :
    (CommandLine.run arguments tree).2 = tree := by
  rw [CommandLine.run] at h ⊢
  cases hp : CommandLine.parseArguments arguments with
  | error fault => rfl
  | ok settings =>
    cases hs : settings.resolve tree with
    | error failure => simp only [hs]
    | ok config =>
      cases hg : generate config tree with
      | mk result after =>
        cases result with
        | error failure =>
          simp only [hs, hg]
          have he : (generate config tree).2 = tree := generate_error (by rw [hg])
          rw [hg] at he
          exact he
        | ok report => simp [hp, hs, hg] at h

/-! ## Runs that fail -/

/-- All or nothing: a run that fails leaves the tree exactly as it was, and so does a command that
exits with a code other than zero. -/
theorem failed_run_keeps_tree (tree : FileTree) :
    (∀ config failure, (generate config tree).1 = .error failure →
        (generate config tree).2 = tree) ∧
      ∀ arguments, (CommandLine.run arguments tree).1.code ≠ 0 →
        (CommandLine.run arguments tree).2 = tree :=
  ⟨fun _ _ h => generate_error h, fun _ h => run_of_code_ne_zero h⟩

/-! ### A directory in the way -/

namespace Sample

def project : Name := ⟨Utf8.encode "project", by decide⟩
def protocols : Name := ⟨Utf8.encode "protocols", by decide⟩
def handler : Name := ⟨Utf8.encode "http.c", by decide⟩
def header : Name := ⟨Utf8.encode "protocols.h", by decide⟩

/-- A working directory with one handler, and an entry at the place of the artifact. -/
def tree (artifact : Node) : FileTree where
  entries := [([project], .directory), ([protocols, project], .directory),
    ([handler, protocols, project], .file [] 0o644 .owner), ([header, project], artifact)]
  home := [project]
  privileged := false
  distinct := by
    simp only [List.map_cons, List.map_nil]
    decide

end Sample

/-- The temporary file is written, cannot be moved onto a directory, and is gone afterwards. -/
theorem blocked_run_keeps_tree :
    ((generate .standard (Sample.tree .directory)).1 =
        .error (.unwritableArtifact (Path.ofText "protocols.h") .isADirectory) ∧
      (generate .standard (Sample.tree .directory)).2 = Sample.tree .directory) ∧
    ((CommandLine.run [] (Sample.tree .directory)).1.code ≠ 0 ∧
      (CommandLine.run [] (Sample.tree .directory)).2 = Sample.tree .directory) := by
  have hg : (generate .standard (Sample.tree .directory)).1 =
      .error (.unwritableArtifact (Path.ofText "protocols.h") .isADirectory) := by decide +kernel
  have hr : (CommandLine.run [] (Sample.tree .directory)).1.code ≠ 0 := by decide +kernel
  obtain ⟨hl, hc⟩ := failed_run_keeps_tree (Sample.tree .directory)
  exact ⟨⟨hg, hl _ _ hg⟩, ⟨hr, hc _ hr⟩⟩

/-! ## Runs that succeed -/

/-- The entry that a run sets: the one called like the last component of the output path, in the
directory of that path. Every other entry stays as it was. -/
structure EntrySet (config : Config) (tree : FileTree) (text : String) (name : Name)
    (directory : Place) (after : FileTree) : Prop where
  last_component : config.output.components.getLast? = some (.named name.bytes)
  parent : tree.resolveDirectory config.output.directory = .ok directory
  entryPlace : tree.entryPlace config.output = .ok (name :: directory)
  home : after.home = tree.home
  privileged : after.privileged = tree.privileged
  lookup : ∀ place, after.lookup place =
    if place = name :: directory then
      some (.file (Utf8.encode text) (Artifact.modeFor tree config.output) .owner)
    else tree.lookup place
  /-- The entry is what the output path leads to, if the run did not replace a link on the way. -/
  leadsToFile : after.resolveDirectory config.output.directory = .ok directory →
    after.LeadsToFile config.output (name :: directory) (Utf8.encode text)
      (Artifact.modeFor tree config.output) .owner
  /-- It then reads as the text, unless the mode that was kept denies this to the owner. -/
  reads : after.resolveDirectory config.output.directory = .ok directory →
    after.fileContent config.output =
      if tree.mayRead (Artifact.modeFor tree config.output) .owner then .ok (Utf8.encode text)
      else .error .permissionDenied

/-- What a run does that succeeds with a report, the text of its artifact being given. -/
structure RunEffect (config : Config) (tree : FileTree) (report : Report) (text : String)
    (after : FileTree) : Prop where
  found : discover tree config.inputDir = .ok report.handlers
  kind : report.kind = config.artifactKind
  capacity : report.capacity = config.capacity.resolve report.handlers.length
  fits : report.handlers.length ≤ report.capacity
  output : report.output = config.output
  rendered : report.kind.template.render tree report.handlers report.capacity = .ok text
  /-- Nothing was to be done exactly if reading the output path gave the text already. -/
  unchanged_iff : report.outcome = .unchanged ↔
    tree.fileContent config.output = .ok (Utf8.encode text)
  kept : report.outcome = .unchanged → after = tree
  replaced : report.outcome = .written →
    ∃ name directory, EntrySet config tree text name directory after

/-- What a run does to the tree when it writes its artifact. -/
theorem write_sets_entry {config : Config} {tree after : FileTree} {text : String}
    {outcome : Artifact.Outcome}
    (h : Artifact.write tree config.output (Utf8.encode text) = (.ok outcome, after)) :
    (outcome = .unchanged ∧ after = tree) ∨
      (outcome = .written ∧ ∃ name directory, EntrySet config tree text name directory after) := by
  obtain ⟨hu, -, ha⟩ | ⟨hu, name, directory, hr⟩ := Artifact.write_cases h
  · exact .inl ⟨hu, ha⟩
  · exact .inr ⟨hu, name, directory, {
      last_component := hr.last_component
      parent := hr.parent
      entryPlace := hr.entryPlace
      home := by rw [hr.eq_put, FileTree.put]
      privileged := by rw [hr.eq_put, FileTree.put]
      lookup := hr.lookup
      leadsToFile := fun hn => hr.leadsToFile (hn.trans hr.parent.symm)
      reads := fun hn => hr.fileContent (hn.trans hr.parent.symm) }⟩

/-- The effect of a run that succeeds. Its report says what was found and asked for. If reading the
output path gave the text of the artifact already, nothing changes. Otherwise one entry is set: the
one called like the last component of the path, in the directory of the path. -/
theorem successful_run_effect (config : Config) (tree : FileTree) (report : Report)
    (h : (generate config tree).1 = .ok report) :
    ∃ text, RunEffect config tree report text (generate config tree).2 := by
  obtain ⟨text, run⟩ := generate_ok h
  have hcases := write_sets_entry run.wrote
  exact ⟨text, {
    found := run.found
    kind := run.kind
    capacity := run.capacity
    fits := run.capacity ▸ Capacity.le_resolve _ _
    output := run.output
    rendered := run.rendered
    unchanged_iff := by rw [← Artifact.write_eq_unchanged_iff, run.wrote, Except.ok.injEq]
    kept := fun e => by
      obtain ⟨-, ha⟩ | ⟨hu, -⟩ := hcases
      · exact ha
      · cases hu.symm.trans e
    replaced := fun e => by
      obtain ⟨hu, -⟩ | ⟨-, entry⟩ := hcases
      · cases hu.symm.trans e
      · exact entry }⟩

/-- A link at the output path, here to the handler directory itself, gives way to a regular file.
The directory that it led to stays as it was. -/
theorem linked_run_effect :
    (generate .standard (Sample.tree (.link (Path.ofText "protocols")))).1 =
        .ok ⟨[⟨⟨"http", by decide⟩, Path.ofText "protocols/http.c"⟩], .cHeader, 64,
          Path.ofText "protocols.h", .written⟩ ∧
      ∃ text : String, ∀ place,
        (generate .standard (Sample.tree (.link (Path.ofText "protocols")))).2.lookup place =
          if place = [Sample.header, Sample.project] then some (.file (Utf8.encode text) 0o644 .owner)
          else (Sample.tree (.link (Path.ofText "protocols"))).lookup place := by
  have hg : (generate .standard (Sample.tree (.link (Path.ofText "protocols")))).1 =
      .ok ⟨[⟨⟨"http", by decide⟩, Path.ofText "protocols/http.c"⟩], .cHeader, 64,
        Path.ofText "protocols.h", .written⟩ := by decide +kernel
  refine ⟨hg, ?_⟩
  obtain ⟨text, effect⟩ := successful_run_effect _ _ _ hg
  obtain ⟨name, directory, entry⟩ := effect.replaced rfl
  have hp : (Sample.tree (.link (Path.ofText "protocols"))).entryPlace Config.standard.output =
      .ok [Sample.header, Sample.project] := by decide +kernel
  have hm : Artifact.modeFor (Sample.tree (.link (Path.ofText "protocols")))
      Config.standard.output = 0o644 := by decide +kernel
  have hl := entry.lookup
  rw [← Except.ok.inj (hp.symm.trans entry.entryPlace), hm] at hl
  exact ⟨text, hl⟩

end HandlerRegistry
