import HandlerRegistry.Artifact.RustModule
import HandlerRegistry.Proofs.Artifact.Rendering
import HandlerRegistry.Proofs.Identifier
import HandlerRegistry.Proofs.Text.Lines
import HandlerRegistry.Text.Numeral

/-! # The Rust module read back

A reader of generated modules, one line at a time: the list of names, the number of slots reserved,
and the statements that enter a handler. A rendered module reads as one list, one reservation, and
one statement for each handler, in this order (`statements_render`). -/

namespace HandlerRegistry.Artifact.RustModule
set_option autoImplicit false

/-! ## The reader -/

/-- A function of a module. -/
structure EntryPoint where
  home : String
  function : String
deriving DecidableEq

/-- What one line of the module says about the table. -/
inductive Statement where
  /-- The list of names. -/
  | names (texts : List String)
  /-- A new table with slots for a number of handlers. -/
  | reserve (slots : Nat)
  /-- A handler entered under a key. -/
  | insert (key : String) (handler : EntryPoint)
deriving DecidableEq

/-- What stands between a fixed start and a fixed end. -/
def between (start ending : String) (line : List Char) : Option (List Char) :=
  (Text.stripStart start.toList line).bind (Text.stripEnd ending.toList)

/-- The texts of a list of string literals without escapes, where a literal is under way (its
characters last first) or has to begin. -/
def literals? : Option (List Char) → List Char → Option (List String)
  | none, '"' :: rest => literals? (some []) rest
  | some read, ['"'] => some [String.ofList read.reverse]
  | some read, '"' :: ',' :: ' ' :: rest =>
    (literals? none rest).map (String.ofList read.reverse :: ·)
  | some read, c :: rest =>
    if c = '"' ∨ c = '\\' then none else literals? (some (c :: read)) rest
  | _, _ => none

/-- The names of the line that lists them. -/
def namesOf? (line : List Char) : Option (List String) :=
  (between "pub const HANDLER_NAMES: &[&str] = &[" "];" line).bind fun inner =>
    if inner = [] then some [] else literals? none inner

/-- The number of slots of the line that reserves them. -/
def slotsOf? (line : List Char) : Option Nat :=
  (between "\tlet mut tbl = ::protoreg_dispatch::HandlerTable::try_with_capacity(" ")?;" line).bind
    Text.readDigits

/-- The key and the handler of a line that enters one. -/
def insertionOf? (line : List Char) : Option (String × EntryPoint) :=
  (between "\ttbl.insert(\"" ");" line).bind fun inner =>
    (Text.splitFirst '"' inner).bind fun (key, rest) =>
      (Text.stripStart ", ".toList rest).bind fun path =>
        (Text.splitFirst ':' path).bind fun (home, rest) =>
          (Text.stripStart [':'] rest).bind fun function =>
            if '\\' ∈ key then none
            else some (String.ofList key, ⟨String.ofList home, String.ofList function⟩)

/-- What a line says about the table, if anything. -/
def statement? (line : List Char) : Option Statement :=
  ((namesOf? line).map .names).or <| ((slotsOf? line).map .reserve).or <|
    (insertionOf? line).map fun entry => .insert entry.1 entry.2

/-- What a text says about the table, in the order of its lines. -/
def statements (text : String) : List Statement := (Text.lines text).filterMap statement?

/-! ## Single lines -/

theorem between_eq_some {start ending : String} {line inner : List Char} :
    between start ending line = some inner ↔
      line = start.toList ++ (inner ++ ending.toList) :=
  Text.stripStart_bind_stripEnd_eq_some

theorem literals?_append {name : List Char} (hq : '"' ∉ name) (hb : '\\' ∉ name)
    (read rest : List Char) :
    literals? (some read) (name ++ rest) = literals? (some (name.reverse ++ read)) rest := by
  induction name generalizing read with
  | nil => rfl
  | cons c name ih =>
    rw [List.mem_cons, not_or] at hq hb
    rw [List.cons_append, literals?, if_neg (not_or.mpr ⟨Ne.symm hq.1, Ne.symm hb.1⟩),
      ih hq.2 hb.2, List.reverse_cons, List.append_assoc]
    -- The other two goals are the equations for a closing quote, which do not apply.
    · rfl
    · exact fun h _ => hq.1 h.symm
    · exact fun _ h _ => hq.1 h.symm

theorem literals?_identifier (id : Identifier) (rest : List Char) :
    literals? none (('"' :: (id.text.toList ++ ['"'])) ++ rest) =
      literals? (some id.text.toList.reverse) ('"' :: rest) := by
  rw [List.cons_append, literals?, List.append_assoc,
    literals?_append (id.not_mem (by decide)) (id.not_mem (by decide)), List.append_nil]
  rfl

/-- A list of identifiers, as it is written, reads as the texts of these. -/
theorem literals?_intercalate (id : Identifier) (ids : List Identifier) :
    literals? none (", ".intercalate ((id :: ids).map fun id => Text.quoted id.text)).toList =
      some ((id :: ids).map Identifier.text) := by
  induction ids generalizing id with
  | nil =>
    rw [List.map_singleton, String.intercalate_singleton, id.toList_quoted,
      ← List.append_nil (_ :: _), literals?_identifier]
    simp [literals?]
  | cons next ids ih =>
    have hn := ih next
    have hs : ", ".toList = [',', ' '] := rfl
    rw [List.map_cons] at hn
    rw [List.map_cons, List.map_cons, String.intercalate_cons_cons, String.toList_append,
      String.toList_append, id.toList_quoted, List.append_assoc, literals?_identifier, hs,
      List.cons_append, List.cons_append, List.nil_append, literals?, hn]
    simp

def namesLine (names : List String) : String :=
  "pub const HANDLER_NAMES: &[&str] = &" ++ Text.quotedList names ++ ";"

def slotsLine (slots : Nat) : String :=
  "\tlet mut tbl = ::protoreg_dispatch::HandlerTable::try_with_capacity(" ++ slots.repr ++ ")?;"

def pathLine (root : String) : String := "#[path = " ++ Text.quoted root ++ "]"

def moduleLine (id : Identifier) : String := "pub mod " ++ id.text ++ ";"

theorem namesOf?_namesLine (ids : List Identifier) :
    namesOf? (namesLine (ids.map Identifier.text)).toList = some (ids.map Identifier.text) := by
  have hs : "pub const HANDLER_NAMES: &[&str] = &[" =
      "pub const HANDLER_NAMES: &[&str] = &" ++ "[" := by simp
  have he : "];" = "]" ++ ";" := by simp
  have hb : between "pub const HANDLER_NAMES: &[&str] = &[" "];"
      (namesLine (ids.map Identifier.text)).toList =
      some (", ".intercalate (ids.map fun id => Text.quoted id.text)).toList := by
    unfold namesLine
    rw [between_eq_some, hs, he, Text.quotedList, List.map_map]
    simp only [String.toList_append, List.append_assoc]
    rfl
  rw [namesOf?, hb, Option.bind_some]
  cases ids with
  | nil => rfl
  | cons id ids =>
    have hr := literals?_intercalate id ids
    rw [if_neg, hr]
    intro hn
    rw [hn] at hr
    cases hr

theorem slotsOf?_slotsLine (slots : Nat) : slotsOf? (slotsLine slots).toList = some slots := by
  have hb : between "\tlet mut tbl = ::protoreg_dispatch::HandlerTable::try_with_capacity(" ")?;"
      (slotsLine slots).toList = some slots.repr.toList := by
    unfold slotsLine
    rw [between_eq_some]
    simp only [String.toList_append, List.append_assoc]
  rw [slotsOf?, hb, Option.bind_some, Nat.toList_repr, Text.readDigits_toDigits]

/-- An insertion is read by its marks: the quotes around the key, the colons in the path. -/
theorem insertionOf?_of_between {line key home function : List Char}
    (hb : between "\ttbl.insert(\"" ");" line =
      some (key ++ '"' :: (", ".toList ++ (home ++ ':' :: ':' :: function))))
    (hq : '"' ∉ key) (hn : '\\' ∉ key) (hc : ':' ∉ home) :
    insertionOf? line =
      some (String.ofList key, ⟨String.ofList home, String.ofList function⟩) := by
  have hkey := Text.splitFirst_eq_some.mpr
    ⟨Eq.refl (key ++ '"' :: (", ".toList ++ (home ++ ':' :: ':' :: function))), hq⟩
  have hpath := Text.stripStart_eq_some.mpr
    (Eq.refl (", ".toList ++ (home ++ ':' :: ':' :: function)))
  have hhome := Text.splitFirst_eq_some.mpr ⟨Eq.refl (home ++ ':' :: ':' :: function), hc⟩
  have hfunction := Text.stripStart_eq_some.mpr (Eq.refl ([':'] ++ function))
  rw [List.singleton_append] at hfunction
  simp only [insertionOf?, hb, hkey, hpath, hhome, hfunction, Option.bind_some, if_neg hn]

theorem insertionOf?_registration (source : HandlerSource) :
    insertionOf? (registration source).toList =
      some (source.id.text, ⟨source.id.text, source.id.symbol⟩) := by
  have hs : "\", " = "\"" ++ ", " := by simp
  have hq : "\"".toList = ['"'] := rfl
  have hc : "::".toList = [':', ':'] := rfl
  have hb : between "\ttbl.insert(\"" ");" (registration source).toList =
      some (source.id.text.toList ++ '"' ::
        (", ".toList ++ (source.id.text.toList ++ ':' :: ':' :: source.id.symbol.toList))) := by
    unfold registration
    rw [between_eq_some, hs]
    simp only [String.toList_append, List.append_assoc, hq, hc, List.cons_append, List.nil_append]
  rw [insertionOf?_of_between hb (source.id.not_mem (by decide)) (source.id.not_mem (by decide))
    (source.id.not_mem (by decide)), String.ofList_toList, String.ofList_toList]

theorem statement?_namesLine (ids : List Identifier) :
    statement? (namesLine (ids.map Identifier.text)).toList =
      some (.names (ids.map Identifier.text)) := by
  rw [statement?, namesOf?_namesLine]
  rfl

theorem statement?_slotsLine (slots : Nat) :
    statement? (slotsLine slots).toList = some (.reserve slots) := by
  have hn : namesOf? (slotsLine slots).toList = none := by
    unfold slotsLine
    simp only [String.toList_append, List.append_assoc]
    rfl
  rw [statement?, slotsOf?_slotsLine, hn]
  rfl

theorem statement?_registration (source : HandlerSource) :
    statement? (registration source).toList =
      some (.insert source.id.text ⟨source.id.text, source.id.symbol⟩) := by
  have hn : namesOf? (registration source).toList = none ∧
      slotsOf? (registration source).toList = none := by
    unfold registration
    simp only [String.toList_append, List.append_assoc]
    exact ⟨rfl, rfl⟩
  rw [statement?, insertionOf?_registration, hn.1, hn.2]
  rfl

theorem statement?_pathLine (root : String) : statement? (pathLine root).toList = none := by
  unfold pathLine
  simp only [String.toList_append, List.append_assoc]
  rfl

theorem statement?_moduleLine (id : Identifier) : statement? (moduleLine id).toList = none := by
  unfold moduleLine
  simp only [String.toList_append, List.append_assoc]
  rfl

/-! ## Several lines -/

theorem statements_append (a b : String) :
    statements (a ++ ("\n" ++ b)) = statements a ++ statements b := by
  rw [statements, Text.lines_append, List.filterMap_append]
  rfl

theorem statements_intercalate (texts : List String) :
    statements ("\n".intercalate texts) = texts.flatMap statements :=
  Text.filterMap_lines_intercalate rfl texts

theorem statements_of_not_mem {text : String} (h : '\n' ∉ text.toList) :
    statements text = (statement? text.toList).toList :=
  Text.filterMap_lines_of_not_mem h

def routineLine : String :=
  "pub fn collect_handlers() -> ::core::option::Option<::protoreg_dispatch::HandlerTable> \x7b"

/-- The lines of an assembled module, where the declarations and the registrations may be several
lines each. -/
theorem assemble_eq (declarations : List String) (sources : List HandlerSource) (capacity : Nat) :
    template.assemble declarations sources capacity = "\n".intercalate
      ["// @generated by protoreg. Do not edit.", "", "\n".intercalate declarations, "",
        "/// Names of every registered protocol handler, sorted.",
        namesLine (sources.map (·.id.text)), "",
        "/// Builds the protocol handler table, or `None` if it cannot be allocated.",
        "#[allow(unused_mut)]", routineLine, slotsLine capacity,
        "\n".intercalate (sources.map registration), "\t::core::option::Option::Some(tbl)", "\x7d",
        ""] := by
  -- The literals are cut at their line feeds by hand: a simplifier joins literals.
  have hp : "// @generated by protoreg. Do not edit.\n\n" =
      "// @generated by protoreg. Do not edit." ++ ("\n" ++ ("" ++ "\n")) := by simp
  have hn : "\n\n/// Names of every registered protocol handler, sorted.\n" =
      "\n" ++ ("" ++ ("\n" ++
        ("/// Names of every registered protocol handler, sorted." ++ "\n"))) := by simp
  have he : ";\n\n" = ";" ++ ("\n" ++ ("" ++ "\n")) := by simp
  have hb : "/// Builds the protocol handler table, or `None` if it cannot be allocated.\n" =
      "/// Builds the protocol handler table, or `None` if it cannot be allocated." ++ "\n" := by
    simp
  have ha : "#[allow(unused_mut)]\n" = "#[allow(unused_mut)]" ++ "\n" := by simp
  have hf :
      "pub fn collect_handlers() -> ::core::option::Option<::protoreg_dispatch::HandlerTable> \x7b\n"
        = routineLine ++ "\n" := by simp [routineLine]
  have hr : ")?;\n" = ")?;" ++ "\n" := by simp
  have hc : "\n\t::core::option::Option::Some(tbl)\n\x7d\n" = "\n" ++
      ("\t::core::option::Option::Some(tbl)" ++ ("\n" ++ ("\x7d" ++ ("\n" ++ "")))) := by simp
  unfold Template.assemble template preamble opening closing namesLine slotsLine
  dsimp only
  rw [hp, hn, he, hb, ha, hf, hr, hc]
  simp only [-String.reduceAppend, String.intercalate_cons_cons, String.intercalate_singleton,
    String.append_assoc]

/-! ## The whole module -/

/-- A declaration takes two lines. -/
theorem declare_eq (root : Path) (id : Identifier) :
    declare root id = pathLine root.display ++ ("\n" ++ moduleLine id) := by
  have hb : "]\npub mod " = "]" ++ ("\n" ++ "pub mod ") := by simp
  unfold declare pathLine moduleLine
  rw [hb]
  simp only [-String.reduceAppend, String.append_assoc]

theorem newline_not_mem_pathLine (root : String) : '\n' ∉ (pathLine root).toList := by
  unfold pathLine
  simp only [String.toList_append, List.mem_append, not_or]
  exact ⟨⟨by decide, Text.newline_not_mem_quoted _⟩, by decide⟩

theorem newline_not_mem_moduleLine (id : Identifier) : '\n' ∉ (moduleLine id).toList := by
  unfold moduleLine
  simp only [String.toList_append, List.mem_append, not_or]
  exact ⟨⟨by decide, id.not_mem (by decide)⟩, by decide⟩

theorem statements_declare (root : Path) (id : Identifier) : statements (declare root id) = [] := by
  rw [declare_eq, statements_append, statements_of_not_mem (newline_not_mem_pathLine _),
    statements_of_not_mem (newline_not_mem_moduleLine _), statement?_pathLine,
    statement?_moduleLine]
  rfl

/-- The statement that enters a handler under its identifier. -/
def insertion (source : HandlerSource) : Statement :=
  .insert source.id.text ⟨source.id.text, source.id.symbol⟩

theorem statements_registration (source : HandlerSource) :
    statements (registration source) = [insertion source] := by
  have hn : '\n' ∉ source.id.text.toList := source.id.not_mem (by decide)
  have hr : '\n' ∉ (registration source).toList := by
    unfold registration Identifier.symbol
    simp only [String.toList_append, List.mem_append, not_or]
    exact ⟨⟨⟨⟨⟨⟨by decide, hn⟩, by decide⟩, hn⟩, by decide⟩, ⟨by decide, hn⟩, by decide⟩,
      by decide⟩
  rw [statements_of_not_mem hr, statement?_registration]
  rfl

theorem statements_registrations (sources : List HandlerSource) :
    (sources.map registration).flatMap statements = sources.map insertion := by
  induction sources with
  | nil => rfl
  | cons source sources ih =>
    rw [List.map_cons, List.flatMap_cons, statements_registration, ih]
    rfl

theorem statements_namesLine (sources : List HandlerSource) :
    statements (namesLine (sources.map (·.id.text))) = [.names (sources.map (·.id.text))] := by
  have hn : '\n' ∉ (namesLine (sources.map (·.id.text))).toList := by
    unfold namesLine
    simp only [String.toList_append, List.mem_append, not_or]
    exact ⟨⟨by decide, Text.newline_not_mem_quotedList _⟩, by decide⟩
  have hs := statement?_namesLine (sources.map HandlerSource.id)
  rw [List.map_map] at hs
  rw [statements_of_not_mem hn]
  exact congrArg Option.toList hs

theorem statements_slotsLine (slots : Nat) : statements (slotsLine slots) = [.reserve slots] := by
  have hd : '\n' ∉ slots.repr.toList := Text.not_mem_repr (by decide) slots
  have hn : '\n' ∉ (slotsLine slots).toList := by
    unfold slotsLine
    simp only [String.toList_append, List.mem_append, not_or]
    exact ⟨⟨by decide, hd⟩, by decide⟩
  rw [statements_of_not_mem hn, statement?_slotsLine]
  rfl

theorem declaration_ok {tree : FileTree} {source : HandlerSource} {text : String}
    (h : declaration tree source = .ok text) :
    ∃ root, moduleRoot tree source = .ok root ∧ text = declare root source.id := by
  unfold declaration at h
  split at h
  · rename_i root hr
    cases h
    exact ⟨root, hr, rfl⟩
  · cases h

theorem statements_declarations {tree : FileTree} {sources : List HandlerSource}
    {declarations : List String}
    (h : List.Forall₂ (fun source text => declaration tree source = .ok text) sources
      declarations) : declarations.flatMap statements = [] := by
  induction h with
  | nil => rfl
  | cons hd _ ih =>
    obtain ⟨root, -, rfl⟩ := declaration_ok hd
    rw [List.flatMap_cons, statements_declare, ih]
    rfl

theorem statements_assemble {declarations : List String}
    (hd : declarations.flatMap statements = []) (sources : List HandlerSource)
    (capacity : Nat) :
    statements (template.assemble declarations sources capacity) =
      .names (sources.map (·.id.text)) :: .reserve capacity :: sources.map insertion := by
  have hfixed : ∀ text ∈ ["// @generated by protoreg. Do not edit.", "",
      "/// Names of every registered protocol handler, sorted.",
      "/// Builds the protocol handler table, or `None` if it cannot be allocated.",
      "#[allow(unused_mut)]", routineLine, "\t::core::option::Option::Some(tbl)", "\x7d"],
      statements text = [] := by
    decide +kernel
  simp only [List.forall_mem_cons] at hfixed
  obtain ⟨hg, he, hl, hb, ha, hf, hs, hc, -⟩ := hfixed
  rw [assemble_eq, statements_intercalate]
  simp only [List.flatMap_cons, List.flatMap_nil, hg, he, hl, hb, ha, hf, hs, hc,
    statements_namesLine, statements_slotsLine, statements_intercalate, hd,
    statements_registrations, List.nil_append, List.append_nil, List.singleton_append]

/-- A rendered module reads as its list of names, its number of slots, and one statement for each
handler, in this order. -/
theorem statements_render {tree : FileTree} {sources : List HandlerSource} {capacity : Nat}
    {text : String} (h : template.render tree sources capacity = .ok text) :
    statements text =
      .names (sources.map (·.id.text)) :: .reserve capacity :: sources.map insertion := by
  obtain ⟨-, declarations, hd, rfl⟩ := Template.render_eq_ok_iff.mp h
  exact statements_assemble (statements_declarations hd) sources capacity

end HandlerRegistry.Artifact.RustModule
