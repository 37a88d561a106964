import HandlerRegistry.CommandLine.Run
import HandlerRegistry.Proofs.CommandLine.Arguments
import HandlerRegistry.Proofs.Config.Layer
import Mathlib.Control.Monad.Basic

/-! # The configuration that the command works with

Three layers lie over one another: what is standard, what the configuration file sets, and what the
options set. Every field is taken from the topmost layer that has it, whatever the other fields are,
and the kind is inferred only afterwards, from the output that came out of this. -/

namespace HandlerRegistry.CommandLine
set_option autoImplicit false

/-- What the file that a choice names sets; a choice that names none has nothing from a file. -/
def Choice.FileSets (choice : Choice) (tree : FileTree) (layer : Config.Layer) : Prop :=
  match choice.config with
  | some file => layer.Written tree file.path
  | none => layer = .nothing

/-! ## The layers of a choice -/

theorem Choice.resolve_eq_error_iff {choice : Choice} {tree : FileTree} {failure : Failure} :
    choice.settings.resolve tree = .error failure ↔
      ∃ file, choice.config = some file ∧ Config.load tree file.path = .error failure := by
  rw [Settings.resolve, Choice.settings]
  cases hc : choice.config with
  | none => simp
  | some file =>
    simp only [Option.map_some, Option.some.injEq, exists_eq_left']
    cases Config.load tree file.path <;> simp [Except.map]

theorem Choice.exists_layer_of_resolve {choice : Choice} {tree : FileTree} {config : Config}
    (h : choice.settings.resolve tree = .ok config) :
    ∃ layer, choice.FileSets tree layer ∧
      config = choice.settings.override (layer.over .standard) := by
  rw [Settings.resolve] at h
  cases hc : choice.config with
  | none =>
    have hn : choice.settings.config = none := congrArg (Option.map GivenPath.path) hc
    rw [hn] at h
    cases h
    refine ⟨.nothing, ?_, rfl⟩
    simp only [Choice.FileSets, hc]
  | some file =>
    have hs : choice.settings.config = some file.path := congrArg (Option.map GivenPath.path) hc
    rw [hs] at h
    cases hl : Config.load tree file.path with
    | error failure =>
      simp only [hl] at h
      cases h
    | ok loaded =>
      simp only [hl] at h
      cases h
      obtain ⟨layer, hw, rfl⟩ := Config.exists_layer_of_load hl
      refine ⟨layer, ?_, rfl⟩
      simpa only [Choice.FileSets, hc] using hw

/-- A configuration in which each field is that of its option, or else that of the file, or else the
standard one. -/
structure Choice.Effective (choice : Choice) (layer : Config.Layer) (config : Config) : Prop where
  inputDir : config.inputDir = (choice.input.map GivenPath.path).getD
    (layer.inputDir.getD (Path.ofText "protocols"))
  output : config.output = (choice.output.map GivenPath.path).getD
    (layer.output.getD (Path.ofText "protocols.h"))
  kind : config.kind = choice.kind.or layer.kind
  capacity : config.capacity = (choice.capacity.map GivenCapacity.capacity).getD
    (layer.capacity.getD (.fixed 64))
  artifactKind_of_some : ∀ kind, config.kind = some kind → config.artifactKind = kind
  /-- A kind that nothing sets is inferred from the output that came out. -/
  artifactKind_of_none :
    config.kind = none → config.artifactKind = Artifact.Kind.infer config.output

theorem Choice.effective_override (choice : Choice) (layer : Config.Layer) :
    choice.Effective layer (choice.settings.override (layer.over .standard)) where
  inputDir := rfl
  output := rfl
  kind := by
    show choice.kind.or (layer.kind.or none) = choice.kind.or layer.kind
    rw [Option.or_none]
  capacity := rfl
  artifactKind_of_some kind hk := by
    rw [Config.artifactKind, hk]
    rfl
  artifactKind_of_none hk := by
    rw [Config.artifactKind, hk]
    rfl

/-- The arguments are accepted in every order. What they make fails exactly if a file is named that
cannot be loaded, and with the failure of loading it. Otherwise each field is that of its option, or
else that of the file, or else the standard one, and the kind of the artifact is the kind so found,
or else the one that fits the output so found. Neither the order of the arguments nor the option for
a detailed log makes a difference. -/
theorem effective_configuration (choice : Choice) (tree : FileTree) (order : List Given)
    (perm : order.Perm choice.options) :
    ∃ settings, parseArguments (order.map Given.argument) = .ok settings ∧
      (∀ failure, settings.resolve tree = .error failure ↔
        ∃ file, choice.config = some file ∧ Config.load tree file.path = .error failure) ∧
      (∀ config, settings.resolve tree = .ok config →
        ∃ layer, choice.FileSets tree layer ∧ choice.Effective layer config) ∧
      ∀ (verbose : Bool) (others : List Given),
        others.Perm { choice with verbose := verbose }.options →
        ∃ otherSettings, parseArguments (others.map Given.argument) = .ok otherSettings ∧
          otherSettings.resolve tree = settings.resolve tree := by
  refine ⟨choice.settings, choice.parseArguments_eq perm, ?_, ?_, ?_⟩
  · intro failure
    exact Choice.resolve_eq_error_iff
  · intro config h
    obtain ⟨layer, hl, rfl⟩ := Choice.exists_layer_of_resolve h
    exact ⟨layer, hl, choice.effective_override layer⟩
  · intro verbose others p
    exact ⟨_, Choice.parseArguments_eq _ p, rfl⟩

/-! ### A file that sets the output only -/

namespace Sample

def desk : Name := ⟨Utf8.encode "desk", by decide⟩
def settingsFile : Name := ⟨Utf8.encode "c.toml", by decide⟩

/-- A working directory with a configuration file. -/
def configured : FileTree where
  entries := [([desk], .directory),
    ([settingsFile, desk], .file (Utf8.encode "output='x.rs'") 0o644 .owner)]
  home := [desk]
  privileged := false
  distinct := by
    simp only [List.map_cons, List.map_nil]
    decide

/-- The file, another input directory, five slots and a detailed log. -/
def choice : Choice where
  config := some ⟨Path.ofText "c.toml", by decide⟩
  input := some ⟨Path.ofText "in", by decide⟩
  output := none
  kind := none
  capacity := some ⟨"+5", .fixed 5, by rfl⟩
  verbose := true

end Sample

theorem Sample.readText_settingsFile :
    Config.readText Sample.configured (Path.ofText "c.toml") = .ok "output='x.rs'" := by
  decide +kernel

theorem Sample.readDocument_settingsFile :
    Toml.readDocument "output='x.rs'" = some [("output", .string "x.rs")] := by
  have hl : "output='x.rs'".toList =
      ['o', 'u', 't', 'p', 'u', 't', '=', '\'', 'x', '.', 'r', 's', '\''] := by rfl
  rw [Toml.readDocument, hl]
  rfl

theorem reversed_options_over_file :
    Sample.choice.options.reverse.Perm Sample.choice.options ∧
      ∃ settings, parseArguments (Sample.choice.options.reverse.map Given.argument) =
          .ok settings ∧
        ∃ config, settings.resolve Sample.configured = .ok config ∧
          config = ⟨Path.ofText "in", Path.ofText "x.rs", none, .fixed 5⟩ ∧
          config.artifactKind = .rustModule := by
  have hp := List.reverse_perm Sample.choice.options
  obtain ⟨settings, hs, hf, hok, -⟩ :=
    effective_configuration Sample.choice Sample.configured _ hp
  have hl : Config.load Sample.configured (Path.ofText "c.toml") =
      .ok { Config.standard with output := Path.ofText "x.rs" } := by
    rw [Config.load, Sample.readText_settingsFile]
    simp only [Config.ofDocument, Sample.readDocument_settingsFile]
    decide +kernel
  cases hr : settings.resolve Sample.configured with
  | error failure =>
    obtain ⟨file, hc, he⟩ := (hf failure).mp hr
    cases hc
    rw [hl] at he
    cases he
  | ok config =>
    obtain ⟨layer, ⟨text, entries, ht, hd, -, hw⟩, effective⟩ := hok config hr
    rw [Sample.readText_settingsFile] at ht
    cases ht
    rw [Sample.readDocument_settingsFile] at hd
    cases hd
    have hx : layer.output = some (Path.ofText "x.rs") := hw.output.unique (.present rfl rfl)
    have hu : layer.kind = none := hw.kind.unique (.absent rfl)
    have hi := effective.inputDir
    have ho := effective.output
    have hk := effective.kind
    have hc := effective.capacity
    rw [hx] at ho
    rw [hu] at hk
    have he : config = ⟨Path.ofText "in", Path.ofText "x.rs", none, .fixed 5⟩ := by
      obtain ⟨input, output, kind, capacity⟩ := config
      cases hi
      cases ho
      cases hk
      cases hc
      rfl
    refine ⟨hp, settings, hs, config, hr, he, ?_⟩
    rw [effective.artifactKind_of_none (congrArg Config.kind he), he]
    decide +kernel

end HandlerRegistry.CommandLine
