import HandlerRegistry.Proofs.Artifact.ModuleText
import HandlerRegistry.Proofs.Text.Literal

/-! # The declarations of a Rust module read back

A reader of what stands between the first line of a module and its list of names: two lines for each
module, its path as a literal and its name, and nothing else. A rendered module declares its handlers
in order with the module roots that are shown for them (`module_reads_back`), so the text of a
module tells identifiers, shown module roots and number of slots. -/

namespace HandlerRegistry.Artifact.RustModule
set_option autoImplicit false

/-! ## The reader -/

def firstLine : String := "// @generated by protoreg. Do not edit."

def namesNote : String := "/// Names of every registered protocol handler, sorted."

/-- The path of a line that gives one: a literal that ends right before the closing bracket. -/
def pathOf? (line : List Char) : Option String :=
  (Text.stripStart "#[path = ".toList line).bind fun rest =>
    (Text.literal? rest).bind fun parts => if parts.2 = [']'] then some parts.1 else none

/-- The name of a line that declares a module. -/
def moduleOf? (line : List Char) : Option Identifier :=
  (between "pub mod " ";" line).bind fun name => (Identifier.parse (String.ofList name)).toOption

/-- The paths and the names of modules that take two lines each. -/
def pairs? : List (List Char) → Option (List (String × Identifier))
  | [] => some []
  | [_] => none
  | path :: name :: rest =>
    (pathOf? path).bind fun root => (moduleOf? name).bind fun id =>
      (pairs? rest).map ((root, id) :: ·)

/-- The paths and the names of all modules that a text declares before its list of names. Without
modules there is a blank line in their place. -/
def modules? (text : String) : Option (List (String × Identifier)) :=
  (Text.stripStart [firstLine.toList, []] (Text.lines text)).bind fun rest =>
    (Text.splitFirst namesNote.toList rest).bind fun parts =>
      (Text.stripEnd [[]] parts.1).bind fun block =>
        if block = [[]] then some [] else pairs? block

/-- What can be read in the lines of a module with some declarations and a number of slots. -/
structure ReadsAs (text : String) (modules : List (String × Identifier)) (capacity : Nat) :
    Prop where
  /-- The modules are declared and nothing else is. -/
  declared : modules? text = some modules
  /-- Their names are listed, the slots reserved, and all else are insertions. -/
  listed : ∃ entries : List (String × EntryPoint),
    statements text = .names (modules.map (·.2.text)) :: .reserve capacity ::
      entries.map fun entry => Statement.insert entry.1 entry.2

/-- A text reads in one way at most. -/
theorem ReadsAs.unique {text : String} {modules others : List (String × Identifier)}
    {capacity other : Nat} (h : ReadsAs text modules capacity) (ho : ReadsAs text others other) :
    modules = others ∧ capacity = other := by
  obtain ⟨entries, hl⟩ := h.listed
  obtain ⟨found, hf⟩ := ho.listed
  rw [hl] at hf
  obtain ⟨-, hr⟩ := List.cons.inj hf
  refine ⟨Option.some.inj (h.declared.symm.trans ho.declared), ?_⟩
  exact Statement.reserve.inj (List.cons.inj hr).1

/-! ## The two lines of a declaration -/

theorem pathOf?_pathLine (root : String) : pathOf? (pathLine root).toList = some root := by
  have hs : (pathLine root).toList =
      "#[path = ".toList ++ ((Text.quoted root).toList ++ [']']) := by
    rw [pathLine, String.toList_append, String.toList_append, List.append_assoc]
    rfl
  rw [pathOf?, Text.stripStart_eq_some.mpr hs, Option.bind_some, Text.literal?_quoted,
    Option.bind_some, if_pos rfl]

theorem moduleOf?_moduleLine (id : Identifier) : moduleOf? (moduleLine id).toList = some id := by
  have hb : between "pub mod " ";" (moduleLine id).toList = some id.text.toList := by
    rw [between_eq_some, moduleLine, String.toList_append, String.toList_append,
      List.append_assoc]
  rw [moduleOf?, hb, Option.bind_some, String.ofList_toList, Identifier.parse_text]
  rfl

def pairLines (module : String × Identifier) : List (List Char) :=
  [(pathLine module.1).toList, (moduleLine module.2).toList]

theorem pairs?_pairLines (modules : List (String × Identifier)) :
    pairs? (modules.flatMap pairLines) = some modules := by
  induction modules with
  | nil => rfl
  | cons module modules ih =>
    rw [List.flatMap_cons, pairLines, List.cons_append, List.singleton_append, pairs?,
      pathOf?_pathLine, Option.bind_some, moduleOf?_moduleLine, Option.bind_some, ih,
      Option.map_some]

theorem namesNote_not_mem_pairLines (modules : List (String × Identifier)) :
    namesNote.toList ∉ modules.flatMap pairLines := by
  intro hm
  obtain ⟨module, -, hl⟩ := List.mem_flatMap.mp hm
  -- The lines differ in their first characters.
  have hn : namesNote.toList.head? = some '/' := rfl
  have hp : (pathLine module.1).toList.head? = some '#' := by
    rw [pathLine, String.toList_append, String.toList_append, List.append_assoc]
    rfl
  have hd : (moduleLine module.2).toList.head? = some 'p' := by
    rw [moduleLine, String.toList_append, String.toList_append, List.append_assoc]
    rfl
  rw [pairLines, List.mem_cons, List.mem_singleton] at hl
  obtain he | he := hl
  · rw [← he, hn] at hp
    cases hp
  · rw [← he, hn] at hd
    cases hd

/-! ## All declarations -/

def declareShown (module : String × Identifier) : String :=
  pathLine module.1 ++ ("\n" ++ moduleLine module.2)

theorem lines_declareShown (module : String × Identifier) :
    Text.lines (declareShown module) = pairLines module := by
  rw [declareShown, Text.lines_append, Text.lines_of_not_mem (newline_not_mem_pathLine _),
    Text.lines_of_not_mem (newline_not_mem_moduleLine _)]
  rfl

/-- The lines of the declarations; without modules there is a blank one. -/
def declarationLines (modules : List (String × Identifier)) : List (List Char) :=
  if modules = [] then [[]] else modules.flatMap pairLines

theorem lines_declarations (modules : List (String × Identifier)) :
    Text.lines ("\n".intercalate (modules.map declareShown)) = declarationLines modules := by
  cases modules with
  | nil => rfl
  | cons module modules =>
    rw [declarationLines, if_neg (List.cons_ne_nil _ _), List.map_cons, Text.lines_intercalate,
      ← List.map_cons, List.flatMap_map]
    exact List.flatMap_congr fun other _ => lines_declareShown other

theorem namesNote_not_mem_declarationLines (modules : List (String × Identifier)) :
    namesNote.toList ∉ declarationLines modules := by
  rw [declarationLines]
  split
  · decide
  · exact namesNote_not_mem_pairLines modules

theorem pairs?_declarationLines (modules : List (String × Identifier)) :
    (if declarationLines modules = [[]] then some [] else pairs? (declarationLines modules)) =
      some modules := by
  cases modules with
  | nil => rfl
  | cons module modules =>
    rw [declarationLines, if_neg (List.cons_ne_nil _ _), pairs?_pairLines, if_neg]
    intro h
    have hl := congrArg List.length h
    simp [pairLines] at hl

theorem lines_assemble (modules : List (String × Identifier)) (sources : List HandlerSource)
    (capacity : Nat) : ∃ after,
      Text.lines (template.assemble (modules.map declareShown) sources capacity) =
        [firstLine.toList, []] ++ ((declarationLines modules ++ [[]]) ++
          namesNote.toList :: after) := by
  have hf : Text.lines firstLine = [firstLine.toList] := Text.lines_of_not_mem (by decide)
  have hn : Text.lines namesNote = [namesNote.toList] := Text.lines_of_not_mem (by decide)
  have he : Text.lines "" = [[]] := rfl
  rw [assemble_eq, Text.lines_intercalate]
  unfold firstLine at hf ⊢
  unfold namesNote at hn ⊢
  simp only [List.flatMap_cons, hf, hn, he, lines_declarations, List.append_assoc,
    List.cons_append, List.nil_append]
  exact ⟨_, rfl⟩

theorem modules?_assemble (modules : List (String × Identifier)) (sources : List HandlerSource)
    (capacity : Nat) :
    modules? (template.assemble (modules.map declareShown) sources capacity) = some modules := by
  obtain ⟨after, hl⟩ := lines_assemble modules sources capacity
  have hm : namesNote.toList ∉ declarationLines modules ++ [[]] := by
    rw [List.mem_append, not_or]
    exact ⟨namesNote_not_mem_declarationLines modules, by decide⟩
  rw [modules?, hl, Text.stripStart_eq_some.mpr rfl, Option.bind_some,
    Text.splitFirst_eq_some.mpr ⟨rfl, hm⟩, Option.bind_some, Text.stripEnd_eq_some.mpr rfl,
    Option.bind_some, pairs?_declarationLines]

/-! ## The whole module -/

/-- The module root of a handler as it is shown. -/
def shownRoot (tree : FileTree) (source : HandlerSource) : Except Failure String :=
  (moduleRoot tree source).map Path.display

/-- The modules that a list of handlers is declared as. -/
def DeclaredAs (tree : FileTree) : List HandlerSource → List (String × Identifier) → Prop :=
  List.Forall₂ fun source module => shownRoot tree source = .ok module.1 ∧ module.2 = source.id

variable {tree otherTree : FileTree} {sources others : List HandlerSource}

theorem exists_declaredAs {declarations : List String}
    (h : List.Forall₂ (fun source text => declaration tree source = .ok text) sources
      declarations) :
    ∃ modules, DeclaredAs tree sources modules ∧ declarations = modules.map declareShown := by
  induction h with
  | nil => exact ⟨[], .nil, rfl⟩
  | @cons source text sources declarations hd _ ih =>
    obtain ⟨root, hr, rfl⟩ := declaration_ok hd
    obtain ⟨modules, hm, rfl⟩ := ih
    have hs : shownRoot tree source = .ok root.display := by
      rw [shownRoot, hr]
      rfl
    refine ⟨(root.display, source.id) :: modules, .cons ⟨hs, rfl⟩ hm, ?_⟩
    rw [List.map_cons, declare_eq]
    rfl

theorem DeclaredAs.map_fst {modules : List (String × Identifier)}
    (h : DeclaredAs tree sources modules) :
    sources.map (shownRoot tree) = (modules.map Prod.fst).map .ok := by
  induction h with
  | nil => rfl
  | cons hm _ ih => rw [List.map_cons, List.map_cons, List.map_cons, ih, hm.1]

theorem DeclaredAs.map_snd {modules : List (String × Identifier)}
    (h : DeclaredAs tree sources modules) : sources.map (·.id) = modules.map Prod.snd := by
  induction h with
  | nil => rfl
  | cons hm _ ih => rw [List.map_cons, List.map_cons, ih, hm.2]

/-- The modules are told by the identifiers and the shown module roots. -/
theorem DeclaredAs.congr {modules otherModules : List (String × Identifier)}
    (h : DeclaredAs tree sources modules) (ho : DeclaredAs otherTree others otherModules)
    (hi : sources.map (·.id) = others.map (·.id))
    (hr : sources.map (shownRoot tree) = others.map (shownRoot otherTree)) :
    modules = otherModules := by
  have hok : Function.Injective (Except.ok : String → Except Failure String) :=
    fun a b he => Except.ok.inj he
  rw [h.map_snd, ho.map_snd] at hi
  rw [h.map_fst, ho.map_fst] at hr
  have hf : modules.map Prod.fst = otherModules.map Prod.fst := List.map_injective_iff.mpr hok hr
  rw [List.zip_of_prod hf hi]
  exact (List.zip_of_prod rfl rfl).symm

theorem exists_readsAs {capacity : Nat} {text : String}
    (h : template.render tree sources capacity = .ok text) :
    ∃ modules, DeclaredAs tree sources modules ∧ ReadsAs text modules capacity ∧
      text = template.assemble (modules.map declareShown) sources capacity := by
  have hs := statements_render h
  obtain ⟨-, declarations, hd, rfl⟩ := Template.render_eq_ok_iff.mp h
  obtain ⟨modules, hm, rfl⟩ := exists_declaredAs hd
  have hn : sources.map (·.id.text) = modules.map (·.2.text) := by
    have hi := congrArg (List.map Identifier.text) hm.map_snd
    rw [List.map_map, List.map_map] at hi
    exact hi
  have he : sources.map insertion =
      (sources.map fun source => (source.id.text, ⟨source.id.text, source.id.symbol⟩)).map
        fun entry => Statement.insert entry.1 entry.2 := by
    rw [List.map_map]
    rfl
  rw [hn, he] at hs
  exact ⟨modules, hm, ⟨modules?_assemble modules sources capacity, _, hs⟩, rfl⟩

/-- Besides the declarations, a module holds nothing of a handler but its identifier. -/
theorem assemble_congr (h : sources.map (·.id) = others.map (·.id)) (declarations : List String)
    (capacity : Nat) :
    template.assemble declarations sources capacity =
      template.assemble declarations others capacity := by
  have hn : sources.map (·.id.text) = others.map (·.id.text) :=
    Template.map_eq_of_ids h Identifier.text
  have hr : sources.map registration = others.map registration :=
    Template.map_eq_of_ids h fun id =>
      "\ttbl.insert(\"" ++ id.text ++ "\", " ++ id.text ++ "::" ++ id.symbol ++ ");"
  rw [assemble_eq, assemble_eq, hn, hr]

/-- A module can be read back, whatever the paths of its handlers hold. Two modules are equal
exactly if the identifiers, the module roots as they are shown, and the numbers of slots are. -/
theorem module_reads_back {capacity : Nat} {text : String}
    (h : template.render tree sources capacity = .ok text) :
    (∃ modules, DeclaredAs tree sources modules ∧ ReadsAs text modules capacity) ∧
    ∀ (otherTree : FileTree) (others : List HandlerSource) (otherCapacity : Nat)
      (otherText : String), template.render otherTree others otherCapacity = .ok otherText →
      (text = otherText ↔ sources.map (·.id) = others.map (·.id) ∧
        sources.map (shownRoot tree) = others.map (shownRoot otherTree) ∧
        capacity = otherCapacity) := by
  obtain ⟨modules, hm, hr, ht⟩ := exists_readsAs h
  refine ⟨⟨modules, hm, hr⟩, ?_⟩
  intro otherTree others otherCapacity otherText ho
  obtain ⟨otherModules, hn, hs, hu⟩ := exists_readsAs ho
  constructor
  · rintro rfl
    obtain ⟨rfl, hc⟩ := hr.unique hs
    exact ⟨hm.map_snd.trans hn.map_snd.symm, hm.map_fst.trans hn.map_fst.symm, hc⟩
  · rintro ⟨hi, hp, rfl⟩
    rw [ht, hu, hm.congr hn hi hp, assemble_congr hi]

/-! ### A path that looks like the end of its literal -/

namespace Sample

def bare : FileTree := ⟨[], [], false, List.nodup_nil⟩

/-- A handler in a file whose name holds a quote, a bracket, a line feed, a backslash, a control
character, a combining accent and a byte that is no UTF-8. -/
def quoting : HandlerSource where
  id := ⟨"http", by decide⟩
  path := ⟨Utf8.encode "a\"]\npub mod b;\n\\\x1b\u0301" ++ [0xFF]⟩

def quotingModule : String := template.assemble [declare quoting.path quoting.id] [quoting] 3

end Sample

theorem quoting_path_reads_back :
    template.render Sample.bare [Sample.quoting] 3 = .ok Sample.quotingModule ∧
      modules? Sample.quotingModule =
        some [("a\"]\npub mod b;\n\\\x1b\u0301\uFFFD", Sample.quoting.id)] ∧
      template.render Sample.bare [Sample.quoting] 4 ≠ .ok Sample.quotingModule := by
  have hg : template.render Sample.bare [Sample.quoting] 3 = .ok Sample.quotingModule := rfl
  have hs : shownRoot Sample.bare Sample.quoting =
      .ok "a\"]\npub mod b;\n\\\x1b\u0301\uFFFD" := by
    decide +kernel
  obtain ⟨⟨modules, hm, hr⟩, ho⟩ := module_reads_back hg
  refine ⟨hg, ?_, fun h => ?_⟩
  · obtain ⟨module, rest, ⟨hp, hi⟩, hn, rfl⟩ := List.forall₂_cons_left_iff.mp hm
    have hq : module = ("a\"]\npub mod b;\n\\\x1b\u0301\uFFFD", Sample.quoting.id) :=
      Prod.ext (Except.ok.inj (hs.symm.trans hp)).symm hi
    rw [hr.declared, List.forall₂_nil_left_iff.mp hn, hq]
  · have hc := ((ho Sample.bare [Sample.quoting] 4 Sample.quotingModule h).mp rfl).2.2
    cases hc

end HandlerRegistry.Artifact.RustModule
