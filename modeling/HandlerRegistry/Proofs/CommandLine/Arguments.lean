import HandlerRegistry.CommandLine.Arguments
import HandlerRegistry.Text.Utf8.Lemmas
import Mathlib.Data.List.Nodup

/-! # Options in any order

Options that are all different, each written out with an accepted value, are read one by one, and
each sets its own part of the settings. Two of them commute, so the settings that they make are the
same in every order: those of the choice that the options express. -/

namespace HandlerRegistry.CommandLine
set_option autoImplicit false

/-! ## Options with their values -/

/-- A path that an option takes. -/
structure GivenPath where
  path : Path
  nonempty : path.bytes ≠ []

/-- A text that the option for the capacity takes. -/
structure GivenCapacity where
  text : String
  capacity : Capacity
  accepted : Capacity.parse text = .ok capacity

/-- An option with an accepted value. -/
inductive Given where
  | config (file : GivenPath)
  | input (directory : GivenPath)
  | output (file : GivenPath)
  | kind (wanted : Artifact.Kind)
  | capacity (written : GivenCapacity)
  | verbose

namespace Given

def flag : Given → Flag
  | .config _ => .valued .config
  | .input _ => .valued .input
  | .output _ => .valued .output
  | .kind _ => .valued .kind
  | .capacity _ => .valued .capacity
  | .verbose => .verbose

def value? : Given → Option (List UInt8)
  | .config file => some file.path.bytes
  | .input directory => some directory.path.bytes
  | .output file => some file.path.bytes
  | .kind wanted => some (Utf8.encode wanted.word)
  | .capacity written => some (Utf8.encode written.text)
  | .verbose => none

/-- The option as one argument, `--name=value` or `--name`. -/
def argument (given : Given) : Argument :=
  Reading.dash :: Reading.dash :: (Utf8.encode given.flag.longName ++
    match given.value? with
    | some value => Reading.equalsSign :: value
    | none => [])

/-- The settings with the option's part of them set. -/
def apply (settings : Settings) : Given → Settings
  | .config file => { settings with config := some file.path }
  | .input directory => { settings with input := some directory.path }
  | .output file => { settings with output := some file.path }
  | .kind wanted => { settings with kind := some wanted }
  | .capacity written => { settings with capacity := some written.capacity }
  | .verbose => { settings with verbose := true }

end Given

/-- Whether the part of the settings that belongs to an option is set. -/
def Settings.holds (settings : Settings) : Flag → Bool
  | .valued field => settings.isSet field
  | .verbose => settings.verbose
  | .help => false

/-! ## One option read -/

theorem equalsSign_not_mem (flag : Flag) :
    Reading.equalsSign ∉ Utf8.encode flag.longName := by
  cases flag with
  | valued field => cases field <;> decide
  | verbose => decide
  | help => decide

theorem ofLongName?_longName (flag : Flag) :
    Flag.ofLongName? (Utf8.encode flag.longName) = some flag := by
  cases flag with
  | valued field => cases field <;> decide
  | verbose => decide
  | help => decide

theorem encode_longName_ne_nil (flag : Flag) : Utf8.encode flag.longName ≠ [] := by
  cases flag with
  | valued field => cases field <;> decide
  | verbose => decide
  | help => decide

namespace Given
variable {settings : Settings} {given : Given}

theorem splitLong_argument (given : Given) :
    Reading.splitLong (Utf8.encode given.flag.longName ++
      match given.value? with
      | some value => Reading.equalsSign :: value
      | none => []) = (Utf8.encode given.flag.longName, given.value?) := by
  have hn := equalsSign_not_mem given.flag
  rw [Reading.splitLong]
  cases hv : given.value? with
  | some value => rw [Text.splitFirst_eq_some.mpr ⟨rfl, hn⟩]
  | none =>
    cases given with
    | verbose => rfl
    | _ => cases hv

theorem set_of_value {field : Field} {value : List UInt8} (hf : given.flag = .valued field)
    (hv : given.value? = some value) : settings.set field value = .ok (given.apply settings) := by
  have hp : ∀ file : GivenPath, Settings.pathValue file.path.bytes = .ok file.path :=
    fun file => if_neg file.nonempty
  cases given with
  | config file =>
    cases hf
    cases hv
    rw [Settings.set, hp]
    rfl
  | input directory =>
    cases hf
    cases hv
    rw [Settings.set, hp]
    rfl
  | output file =>
    cases hf
    cases hv
    rw [Settings.set, hp]
    rfl
  | kind wanted =>
    cases hf
    cases hv
    rw [Settings.set, Settings.kindValue, Utf8.decode?_encode, Option.bind_some,
      Artifact.Kind.ofWord?_eq_some_iff.mpr rfl]
    rfl
  | capacity written =>
    cases hf
    cases hv
    rw [Settings.set, Settings.capacityValue, Utf8.decode?_encode]
    simp only [written.accepted]
    rfl
  | verbose => cases hf

/-- An argument of two dashes and more is read as a long option. -/
theorem step_dashes (reading : Reading) (unended : reading.ended = false) {body : List UInt8}
    (hb : body ≠ []) : reading.step (Reading.dash :: Reading.dash :: body) =
      reading.long (Reading.splitLong body).1 (Reading.splitLong body).2 := by
  have hd : Reading.dash :: Reading.dash :: body ≠ [Reading.dash, Reading.dash] := by
    intro he
    exact hb (List.cons.inj (List.cons.inj he).2).2
  rw [Reading.step, unended, if_neg Bool.false_ne_true, if_neg hd]
  exact if_pos ⟨rfl, rfl⟩

theorem step_argument (fresh : settings.holds given.flag = false) :
    (Reading.mk settings none false).step given.argument =
      .ok ⟨given.apply settings, none, false⟩ := by
  have hb : Utf8.encode given.flag.longName ++ (match given.value? with
      | some value => Reading.equalsSign :: value
      | none => []) ≠ [] := List.append_ne_nil_of_left_ne_nil (encode_longName_ne_nil _) _
  rw [argument, step_dashes _ rfl hb, splitLong_argument]
  cases hf : given.flag with
  | valued field =>
    have hs : settings.isSet field = false := by
      rw [hf] at fresh
      exact fresh
    obtain ⟨value, hv⟩ : ∃ value, given.value? = some value := by
      cases given with
      | verbose => cases hf
      | _ => exact ⟨_, rfl⟩
    have hg : settings.give field (some value) = .ok (given.apply settings) := by
      rw [Settings.give, hs, if_neg Bool.false_ne_true]
      exact set_of_value hf hv
    simp only [Reading.long, ofLongName?_longName, hv, Reading.field, Reading.settle, hg]
    rfl
  | verbose =>
    cases given with
    | verbose =>
      have hs : settings.verbose = false := fresh
      simp only [Reading.long, ofLongName?_longName, value?, Reading.verbose, Reading.settle, hs]
      rfl
    | _ => cases hf
  | help => cases given <;> cases hf

theorem holds_apply (settings : Settings) (given : Given) (flag : Flag) :
    (given.apply settings).holds flag = (decide (flag = given.flag) || settings.holds flag) := by
  cases flag with
  | valued field => cases given <;> cases field <;> rfl
  | verbose => cases given <;> rfl
  | help => cases given <;> rfl

/-- Two different options set different parts of the settings. -/
theorem apply_comm {a b : Given} (h : a.flag ≠ b.flag) (settings : Settings) :
    b.apply (a.apply settings) = a.apply (b.apply settings) := by
  cases a <;> cases b <;> first | rfl | exact absurd rfl h

end Given

/-! ## All options read -/

/-- Options that are all different and not set yet are accepted. -/
theorem steps_arguments {order : List Given} (distinct : (order.map Given.flag).Nodup)
    {settings : Settings} (fresh : ∀ given ∈ order, settings.holds given.flag = false) :
    (Reading.mk settings none false).steps (order.map Given.argument) =
      .ok ⟨order.foldl (fun settings given => given.apply settings) settings, none, false⟩ := by
  induction order generalizing settings with
  | nil => rfl
  | cons given rest ih =>
    obtain ⟨hf, hr⟩ := List.forall_mem_cons.mp fresh
    obtain ⟨hn, hd⟩ := List.nodup_cons.mp distinct
    rw [List.map_cons, Reading.steps, Given.step_argument hf]
    apply ih hd
    intro other ho
    have hne : other.flag ≠ given.flag := fun e => hn (e ▸ List.mem_map_of_mem ho)
    rw [Given.holds_apply, hr other ho, decide_eq_false hne, Bool.or_false]

/-! ## Choices -/

/-- Which options are given, and with which values. -/
structure Choice where
  config : Option GivenPath
  input : Option GivenPath
  output : Option GivenPath
  kind : Option Artifact.Kind
  capacity : Option GivenCapacity
  verbose : Bool

namespace Choice

/-- The options of a choice, in one of their orders. -/
def options (choice : Choice) : List Given :=
  choice.config.toList.map .config ++ choice.input.toList.map .input ++
    choice.output.toList.map .output ++ choice.kind.toList.map .kind ++
    choice.capacity.toList.map .capacity ++ if choice.verbose then [.verbose] else []

def settings (choice : Choice) : Settings where
  config := choice.config.map GivenPath.path
  input := choice.input.map GivenPath.path
  output := choice.output.map GivenPath.path
  kind := choice.kind
  capacity := choice.capacity.map GivenCapacity.capacity
  verbose := choice.verbose

theorem flags_toList {α : Type} (value? : Option α) (make : α → Given) (flag : Flag)
    (h : ∀ value, (make value).flag = flag) :
    ((value?.toList.map make).map Given.flag).Sublist [flag] := by
  cases value? with
  | none => exact List.nil_sublist _
  | some value =>
    show [(make value).flag].Sublist [flag]
    rw [h]

theorem nodup_options (choice : Choice) : (choice.options.map Given.flag).Nodup := by
  have hv : ((if choice.verbose then [Given.verbose] else []).map Given.flag).Sublist
      [Flag.verbose] := by
    cases choice.verbose with
    | true => exact List.Sublist.refl _
    | false => exact List.nil_sublist _
  have hs : (choice.options.map Given.flag).Sublist
      ([.valued .config] ++ [.valued .input] ++ [.valued .output] ++ [.valued .kind] ++
        [.valued .capacity] ++ [Flag.verbose]) := by
    simp only [options, List.map_append]
    have hc := flags_toList choice.config .config (.valued .config) fun _ => rfl
    have hi := flags_toList choice.input .input (.valued .input) fun _ => rfl
    have ho := flags_toList choice.output .output (.valued .output) fun _ => rfl
    have hk := flags_toList choice.kind .kind (.valued .kind) fun _ => rfl
    have ha := flags_toList choice.capacity .capacity (.valued .capacity) fun _ => rfl
    exact ((((hc.append hi).append ho).append hk).append ha).append hv
  exact hs.nodup (by decide)

theorem foldl_options (choice : Choice) :
    choice.options.foldl (fun settings given => given.apply settings) .unset =
      choice.settings := by
  obtain ⟨config, input, output, kind, capacity, verbose⟩ := choice
  cases config <;> cases input <;> cases output <;> cases kind <;> cases capacity <;>
    cases verbose <;> rfl

/-- The options of a choice make its settings, whatever their order. -/
theorem parseArguments_eq (choice : Choice) {order : List Given}
    (perm : order.Perm choice.options) :
    parseArguments (order.map Given.argument) = .ok choice.settings := by
  have hd : (order.map Given.flag).Nodup :=
    (perm.map Given.flag).nodup_iff.mpr choice.nodup_options
  have hc : order.foldl (fun settings given => given.apply settings) .unset =
      choice.settings := by
    rw [← foldl_options]
    apply perm.foldl_eq'
    intro a ha b hb settings
    by_cases h : a = b
    · rw [h]
    · exact Given.apply_comm (fun e => h (List.inj_on_of_nodup_map hd ha hb e)) settings
  have hf : ∀ given ∈ order, Settings.unset.holds given.flag = false := by
    intro given _
    cases given <;> rfl
  rw [parseArguments, Reading.start, steps_arguments hd hf, hc]
  rfl

end Choice
end HandlerRegistry.CommandLine
