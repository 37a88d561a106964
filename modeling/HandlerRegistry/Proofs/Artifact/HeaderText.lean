import HandlerRegistry.Artifact.CHeader
import HandlerRegistry.Proofs.Artifact.Rendering
import HandlerRegistry.Proofs.Identifier
import HandlerRegistry.Proofs.Text.Marks
import HandlerRegistry.Text.Numeral
import Mathlib.Data.Option.Basic

/-! # The C header read back

Readers of generated headers that look for a declaration, a registration or a reservation anywhere
in a line. An identifier may be made of the words around it, so the marks are told apart by what no
identifier holds: a mark is a word and a separator, and the parts of a line that the handlers fill
in hold no separator and end in none of the words (`readAfter_declaration`,
`readAfter_registration`, `readAfter_slots`). -/

namespace HandlerRegistry.Artifact.CHeader
set_option autoImplicit false

/-! ## The reader -/

def declarationMark : List Char := "extern mget_err ".toList

def registrationMark : List Char := "hash_table_insert(tbl, \"".toList

def reservationMark : List Char := "hash_table_create(".toList

/-- The symbol of a declaration, read after its mark. -/
def declared? (rest : List Char) : Option String :=
  (Text.splitFirst '(' rest).bind fun parts =>
    (Text.stripStart "dinfo*, dp_callback, bool*, mget_option*, void*);".toList parts.2).map fun _ =>
      String.ofList parts.1

/-- The key and the symbol of a registration, read after its mark. -/
def entered? (rest : List Char) : Option (String × String) :=
  (Text.splitFirst '"' rest).bind fun key =>
    (Text.stripStart ", ".toList key.2).bind fun rest =>
      (Text.splitFirst ',' rest).bind fun symbol =>
        (Text.stripStart " sizeof(void*));".toList symbol.2).map fun _ =>
          (String.ofList key.1, String.ofList symbol.1)

/-- The number of slots of a reservation as it is written, read after its mark. -/
def reserved? (rest : List Char) : Option String :=
  (Text.splitFirst ',' rest).bind fun slots =>
    (Text.stripStart " NULL)".toList slots.2).map fun _ => String.ofList slots.1

-- All that a line declares, registers or reserves, if anything.
def declarations? : List Char → Option (List String) := Text.found? declarationMark declared?

def registrations? : List Char → Option (List (String × String)) :=
  Text.found? registrationMark entered?

def reservations? : List Char → Option (List String) := Text.found? reservationMark reserved?

/-! ## What follows a mark -/

theorem declared?_symbol (id : Identifier) (rest : List Char) :
    declared? (id.symbol.toList ++ '(' ::
      ("dinfo*, dp_callback, bool*, mget_option*, void*);".toList ++ rest)) = some id.symbol := by
  have hp : '(' ∉ id.symbol.toList := id.not_mem_symbol (by decide)
  simp only [declared?, Text.splitFirst_eq_some.mpr ⟨rfl, hp⟩, Option.bind_some,
    Text.stripStart_eq_some.mpr rfl, Option.map_some, String.ofList_toList]

theorem entered?_key (id : Identifier) (rest : List Char) :
    entered? (id.text.toList ++ '"' :: (", ".toList ++ (id.symbol.toList ++ ',' ::
      (" sizeof(void*));".toList ++ rest)))) = some (id.text, id.symbol) := by
  have hq : '"' ∉ id.text.toList := id.not_mem (by decide)
  have hc : ',' ∉ id.symbol.toList := id.not_mem_symbol (by decide)
  simp only [entered?, Text.splitFirst_eq_some.mpr ⟨rfl, hq⟩, Option.bind_some,
    Text.stripStart_eq_some.mpr rfl, Text.splitFirst_eq_some.mpr ⟨rfl, hc⟩, Option.map_some,
    String.ofList_toList]

theorem reserved?_repr (slots : Nat) (rest : List Char) :
    reserved? (slots.repr.toList ++ ',' :: (" NULL)".toList ++ rest)) = some slots.repr := by
  have hc : ',' ∉ slots.repr.toList := Text.not_mem_repr (by decide) slots
  simp only [reserved?, Text.splitFirst_eq_some.mpr ⟨rfl, hc⟩, Option.bind_some,
    Text.stripStart_eq_some.mpr rfl, Option.map_some, String.ofList_toList]

/-! ## Single lines -/

def slotsLine (slots : Nat) : String :=
  "    hash_table* tbl = hash_table_create(" ++ slots.repr ++ ", NULL);"

theorem toList_declaration (source : HandlerSource) :
    (declaration source).toList = declarationMark ++ (source.id.symbol.toList ++ '(' ::
      ("dinfo*, dp_callback, bool*, mget_option*, void*);".toList ++ [])) := by
  have hp : "(dinfo*, dp_callback, bool*, mget_option*, void*);".toList =
      '(' :: ("dinfo*, dp_callback, bool*, mget_option*, void*);".toList ++ []) := rfl
  unfold declaration declarationMark
  simp only [String.toList_append, hp, List.append_assoc]

theorem toList_registration (source : HandlerSource) :
    (registration source).toList = "        ".toList ++ (registrationMark ++
      (source.id.text.toList ++ '"' :: (", ".toList ++ (source.id.symbol.toList ++ ',' ::
        (" sizeof(void*));".toList ++ []))))) := by
  have hm : "        hash_table_insert(tbl, \"".toList = "        ".toList ++ registrationMark :=
    rfl
  have hq : "\", ".toList = '"' :: ", ".toList := rfl
  have hc : ", sizeof(void*));".toList = ',' :: (" sizeof(void*));".toList ++ []) := rfl
  unfold registration
  simp only [String.toList_append, hm, hq, hc, List.append_assoc, List.cons_append]

theorem toList_slotsLine (slots : Nat) :
    (slotsLine slots).toList = "    hash_table* tbl = ".toList ++ (reservationMark ++
      (slots.repr.toList ++ ',' :: (" NULL)".toList ++ [';']))) := by
  have hm : "    hash_table* tbl = hash_table_create(".toList =
      "    hash_table* tbl = ".toList ++ reservationMark := rfl
  have hc : ", NULL);".toList = ',' :: (" NULL)".toList ++ [';']) := rfl
  unfold slotsLine
  simp only [String.toList_append, hm, hc, List.append_assoc]

theorem declarationMark_eq : declarationMark = "extern".toList ++ ' ' :: "mget_err ".toList := rfl

theorem registrationMark_eq :
    registrationMark = "hash_table_insert".toList ++ '(' :: "tbl, \"".toList := rfl

theorem reservationMark_eq : reservationMark = "hash_table_create".toList ++ '(' :: [] := rfl

section
variable {β : Type} {read : List Char → Option β} {mark word after : List Char}

/-- A call in a declaration would be of a function whose name ends like a symbol. -/
theorem readAfter_declaration (source : HandlerSource) (hm : mark = word ++ '(' :: after)
    (hw : '(' ∉ word) (hs : ¬ word <:+ Identifier.symbolEnd.toList)
    (he : ¬ Identifier.symbolEnd.toList <:+ word) :
    Text.readAfter mark read (declaration source).toList =
      Text.readAfter mark read "dinfo*, dp_callback, bool*, mget_option*, void*);".toList := by
  have hp : '(' ∉ declarationMark ++ source.id.symbol.toList := by
    rw [List.mem_append, not_or]
    exact ⟨by decide, source.id.not_mem_symbol (by decide)⟩
  have hn : ¬ word <:+ declarationMark ++ source.id.symbol.toList := by
    rw [Identifier.toList_symbol, ← List.append_assoc, ← List.append_assoc]
    exact Text.not_suffix_append hs he _
  rw [toList_declaration, ← List.append_assoc, Text.readAfter_append_cons hm hp hw fun _ => hn,
    List.append_nil]

/-- Neither the key nor the symbol of a registration holds a separator that is not in an
identifier. -/
theorem readAfter_registration {e : Char} (source : HandlerSource) (hm : mark = word ++ e :: after)
    (hw : '"' ∉ word ∧ ',' ∉ word) (hne : e ≠ '"' ∧ e ≠ ',')
    (he : Identifier.mayContinue e = false)
    (hk : ∀ rest, Text.readAfter mark read (", ".toList ++ rest) = Text.readAfter mark read rest) :
    Text.readAfter mark read (source.id.text.toList ++ '"' :: (", ".toList ++
      (source.id.symbol.toList ++ ',' :: (" sizeof(void*));".toList ++ [])))) =
        Text.readAfter mark read " sizeof(void*));".toList := by
  rw [Text.readAfter_append_cons hm (source.id.not_mem he) hw.1 fun h => absurd h.symm hne.1, hk,
    Text.readAfter_append_cons hm (source.id.not_mem_symbol he) hw.2 fun h => absurd h.symm hne.2,
    List.append_nil]

theorem readAfter_slots {e : Char} (slots : Nat) (hm : mark = word ++ e :: after)
    (hw : ',' ∉ word) (hne : e ≠ ',') (he : e.isDigit = false) :
    Text.readAfter mark read (slots.repr.toList ++ ',' :: (" NULL)".toList ++ [';'])) =
      Text.readAfter mark read " NULL);".toList :=
  Text.readAfter_append_cons hm (Text.not_mem_repr he slots) hw fun h => absurd h.symm hne

end

/-! ### The line that declares a symbol -/

theorem declarations?_declaration (source : HandlerSource) :
    declarations? (declaration source).toList = some [source.id.symbol] := by
  have hskip : ∀ rest, Text.readAfter declarationMark declared? (declarationMark.tail ++ rest) =
      Text.readAfter declarationMark declared? rest := fun rest => rfl
  have hs : ' ' ∉ source.id.symbol.toList := source.id.not_mem_symbol (by decide)
  -- A second occurrence would begin in the mark, in the symbol or in the types after it.
  rw [declarations?, Text.found?, toList_declaration, Text.readAfter_mark (by decide),
    declared?_symbol, hskip,
    Text.readAfter_append_cons declarationMark_eq hs (by decide) fun h => absurd h (by decide)]
  rfl

theorem registrations?_declaration (source : HandlerSource) :
    registrations? (declaration source).toList = none := by
  rw [registrations?, Text.found?, readAfter_declaration source registrationMark_eq (by decide)
    (by decide) (by decide)]
  rfl

theorem reservations?_declaration (source : HandlerSource) :
    reservations? (declaration source).toList = none := by
  rw [reservations?, Text.found?, readAfter_declaration source reservationMark_eq (by decide)
    (by decide) (by decide)]
  rfl

/-! ### The line that registers a symbol -/

theorem declarations?_registration (source : HandlerSource) :
    declarations? (registration source).toList = none := by
  have hskip : ∀ rest, Text.readAfter declarationMark declared?
      ("        ".toList ++ (registrationMark ++ rest)) =
        Text.readAfter declarationMark declared? rest := fun rest => rfl
  rw [declarations?, Text.found?, toList_registration, hskip, readAfter_registration source
    declarationMark_eq (by decide) (by decide) (by decide) fun _ => rfl]
  rfl

theorem registrations?_registration (source : HandlerSource) :
    registrations? (registration source).toList = some [(source.id.text, source.id.symbol)] := by
  have hindent : ∀ rest, Text.readAfter registrationMark entered? ("        ".toList ++ rest) =
      Text.readAfter registrationMark entered? rest := fun rest => rfl
  have hskip : ∀ rest, Text.readAfter registrationMark entered? (registrationMark.tail ++ rest) =
      Text.readAfter registrationMark entered? rest := fun rest => rfl
  rw [registrations?, Text.found?, toList_registration, hindent, Text.readAfter_mark (by decide),
    entered?_key, hskip, readAfter_registration source registrationMark_eq (by decide) (by decide)
      (by decide) fun _ => rfl]
  rfl

theorem reservations?_registration (source : HandlerSource) :
    reservations? (registration source).toList = none := by
  have hskip : ∀ rest, Text.readAfter reservationMark reserved?
      ("        ".toList ++ (registrationMark ++ rest)) =
        Text.readAfter reservationMark reserved? rest := fun rest => rfl
  rw [reservations?, Text.found?, toList_registration, hskip, readAfter_registration source
    reservationMark_eq (by decide) (by decide) (by decide) fun _ => rfl]
  rfl

/-! ### The line that reserves the slots -/

theorem declarations?_slotsLine (slots : Nat) : declarations? (slotsLine slots).toList = none := by
  have hskip : ∀ rest, Text.readAfter declarationMark declared?
      ("    hash_table* tbl = ".toList ++ (reservationMark ++ rest)) =
        Text.readAfter declarationMark declared? rest := fun rest => rfl
  rw [declarations?, Text.found?, toList_slotsLine, hskip, readAfter_slots slots
    declarationMark_eq (by decide) (by decide) (by decide)]
  rfl

theorem registrations?_slotsLine (slots : Nat) :
    registrations? (slotsLine slots).toList = none := by
  have hskip : ∀ rest, Text.readAfter registrationMark entered?
      ("    hash_table* tbl = ".toList ++ (reservationMark ++ rest)) =
        Text.readAfter registrationMark entered? rest := fun rest => rfl
  rw [registrations?, Text.found?, toList_slotsLine, hskip, readAfter_slots slots
    registrationMark_eq (by decide) (by decide) (by decide)]
  rfl

theorem reservations?_slotsLine (slots : Nat) :
    reservations? (slotsLine slots).toList = some [slots.repr] := by
  have hindent : ∀ rest, Text.readAfter reservationMark reserved?
      ("    hash_table* tbl = ".toList ++ rest) =
        Text.readAfter reservationMark reserved? rest := fun rest => rfl
  have hskip : ∀ rest, Text.readAfter reservationMark reserved? (reservationMark.tail ++ rest) =
      Text.readAfter reservationMark reserved? rest := fun rest => rfl
  rw [reservations?, Text.found?, toList_slotsLine, hindent, Text.readAfter_mark (by decide),
    reserved?_repr, hskip, readAfter_slots slots reservationMark_eq (by decide) (by decide)
      (by decide)]
  rfl

/-! ## The whole header -/

theorem newline_not_mem_declaration (source : HandlerSource) :
    '\n' ∉ (declaration source).toList := by
  unfold declaration
  simp only [String.toList_append, List.mem_append, not_or]
  exact ⟨⟨by decide, source.id.not_mem_symbol (by decide)⟩, by decide⟩

theorem newline_not_mem_registration (source : HandlerSource) :
    '\n' ∉ (registration source).toList := by
  unfold registration
  simp only [String.toList_append, List.mem_append, not_or]
  exact ⟨⟨⟨⟨by decide, source.id.not_mem (by decide)⟩, by decide⟩,
    source.id.not_mem_symbol (by decide)⟩, by decide⟩

theorem newline_not_mem_slotsLine (slots : Nat) : '\n' ∉ (slotsLine slots).toList := by
  unfold slotsLine
  simp only [String.toList_append, List.mem_append, not_or]
  exact ⟨⟨by decide, Text.not_mem_repr (by decide) slots⟩, by decide⟩

/-- The lines of an assembled header, where the declarations and the registrations may be several
lines each. -/
theorem assemble_eq (declarations : List String) (sources : List HandlerSource) (capacity : Nat) :
    template.assemble declarations sources capacity = "\n".intercalate
      ["/* Generated by protoreg. Do not edit. */", "#ifndef _GENERATED_H_",
        "#define _GENERATED_H_", "", "\n".intercalate declarations, "",
        "hash_table* collect_handlers()", "\x7b", slotsLine capacity, "    if (tbl)", "    \x7b",
        "\n".intercalate (sources.map registration), "    \x7d", "", "    return tbl;", "\x7d", "",
        "#endif /* _GENERATED_H_ */", ""] := by
  -- The literals are cut at their line feeds by hand: a simplifier joins literals.
  have hp : preamble = "/* Generated by protoreg. Do not edit. */" ++ ("\n" ++
      ("#ifndef _GENERATED_H_" ++ ("\n" ++ ("#define _GENERATED_H_" ++ ("\n" ++
        ("" ++ "\n")))))) := by
    unfold preamble guardName
    simp
  have ho : "\n\nhash_table* collect_handlers()\n\x7b\n    hash_table* tbl = hash_table_create(" =
      "\n" ++ ("" ++ ("\n" ++ ("hash_table* collect_handlers()" ++ ("\n" ++ ("\x7b" ++ ("\n" ++
        "    hash_table* tbl = hash_table_create(")))))) := by simp
  have hr : ", NULL);\n    if (tbl)\n    \x7b\n" =
      ", NULL);" ++ ("\n" ++ ("    if (tbl)" ++ ("\n" ++ ("    \x7b" ++ "\n")))) := by simp
  have hc : closing = "\n" ++ ("    \x7d" ++ ("\n" ++ ("" ++ ("\n" ++ ("    return tbl;" ++
      ("\n" ++ ("\x7d" ++ ("\n" ++ ("" ++ ("\n" ++ ("#endif /* _GENERATED_H_ */" ++
        ("\n" ++ "")))))))))))) := by
    unfold closing guardName
    simp
  unfold Template.assemble template opening slotsLine
  dsimp only
  rw [hp, ho, hr, hc]
  simp only [-String.reduceAppend, String.intercalate_cons_cons, String.intercalate_singleton,
    String.append_assoc]

section
variable {β : Type} {read : List Char → Option β}

theorem filterMap_lines_map {line : HandlerSource → String}
    (h : ∀ source, '\n' ∉ (line source).toList) (sources : List HandlerSource) :
    (sources.map line).flatMap (fun text => (Text.lines text).filterMap read) =
      sources.filterMap fun source => read (line source).toList := by
  rw [List.flatMap_map, List.filterMap_eq_flatMap_toList]
  exact List.flatMap_congr fun source _ => Text.filterMap_lines_of_not_mem (h source)

def fixedLines : List String :=
  ["", "/* Generated by protoreg. Do not edit. */", "#ifndef _GENERATED_H_",
    "#define _GENERATED_H_", "hash_table* collect_handlers()", "\x7b", "    if (tbl)", "    \x7b",
    "    \x7d", "    return tbl;", "\x7d", "#endif /* _GENERATED_H_ */"]

theorem filterMap_lines_assemble (h : ∀ text ∈ fixedLines, read text.toList = none)
    (sources : List HandlerSource) (capacity : Nat) :
    (Text.lines (template.assemble (sources.map declaration) sources capacity)).filterMap read =
      (sources.filterMap fun source => read (declaration source).toList) ++
        ((read (slotsLine capacity).toList).toList ++
          sources.filterMap fun source => read (registration source).toList) := by
  have hnone : ∀ text ∈ fixedLines, (Text.lines text).filterMap read = [] := by
    have hn : ∀ text ∈ fixedLines, '\n' ∉ text.toList := by
      decide +kernel
    intro text hm
    rw [Text.filterMap_lines_of_not_mem (hn text hm), h text hm]
    rfl
  have hblank : read [] = none := h "" (List.mem_cons_self ..)
  unfold fixedLines at hnone
  simp only [List.forall_mem_cons] at hnone
  obtain ⟨he, hg, hi, hd, hf, ho, ht, hs, hc, hr, hb, hn, -⟩ := hnone
  rw [assemble_eq, Text.filterMap_lines_intercalate hblank]
  simp only [List.flatMap_cons, List.flatMap_nil, he, hg, hi, hd, hf, ho, ht, hs, hc, hr, hb, hn,
    Text.filterMap_lines_intercalate hblank, filterMap_lines_map newline_not_mem_declaration,
    filterMap_lines_map newline_not_mem_registration,
    Text.filterMap_lines_of_not_mem (newline_not_mem_slotsLine capacity), List.nil_append,
    List.append_nil]

/-- A reader finds in a header what it finds in the declarations, in the line that reserves the
slots and in the registrations, unless it finds something in a fixed line. -/
theorem readLines_assemble (h : ∀ text ∈ fixedLines, read text.toList = none)
    (sources : List HandlerSource) (capacity : Nat) :
    Text.readLines read (template.assemble (sources.map declaration) sources capacity) =
      (sources.filterMap fun source =>
        (read (declaration source).toList).map fun found => (declaration source, found)) ++
      (((read (slotsLine capacity).toList).map fun found => (slotsLine capacity, found)).toList ++
        sources.filterMap fun source =>
          (read (registration source).toList).map fun found => (registration source, found)) := by
  have hn : ∀ text ∈ fixedLines, ((read text.toList).map fun found =>
      (String.ofList text.toList, found)) = none := by
    intro text hm
    rw [h text hm]
    rfl
  rw [Text.readLines, filterMap_lines_assemble hn]
  simp only [String.ofList_toList]

end

def declares (symbol : String) : String :=
  "extern mget_err " ++ symbol ++ "(dinfo*, dp_callback, bool*, mget_option*, void*);"

def registers (key symbol : String) : String :=
  "        hash_table_insert(tbl, \"" ++ key ++ "\", " ++ symbol ++ ", sizeof(void*));"

theorem declares_symbol (source : HandlerSource) :
    declares source.id.symbol = declaration source := rfl

theorem registers_symbol (source : HandlerSource) :
    registers source.id.text source.id.symbol = registration source := rfl

/-- What can be read in the lines of a header for some handlers and a number of slots. Each of the
lines in which something is read holds nothing else. -/
structure ReadsAs (text : String) (ids : List Identifier) (capacity : Nat) : Prop where
  /-- One line for each handler declares a symbol, that of the handler. -/
  declared : ∃ symbols : List String,
    Text.readLines declarations? text = symbols.map (fun symbol => (declares symbol, [symbol])) ∧
      symbols.map Identifier.ofSymbol? = ids.map some
  /-- One line for each handler registers a symbol, that of the handler, under its identifier. -/
  registered : ∃ entries : List (String × String),
    Text.readLines registrations? text =
        entries.map (fun entry => (registers entry.1 entry.2, [entry])) ∧
      entries.map Prod.fst = ids.map Identifier.text ∧
      entries.map (fun entry => Identifier.ofSymbol? entry.2) = ids.map some
  /-- One line reserves the slots. -/
  reserved : Text.readLines reservations? text = [(slotsLine capacity, [capacity.repr])]

/-- A text reads in one way at most. -/
theorem ReadsAs.unique {text : String} {ids others : List Identifier} {capacity other : Nat}
    (h : ReadsAs text ids capacity) (ho : ReadsAs text others other) :
    ids = others ∧ capacity = other := by
  obtain ⟨symbols, hs, hi⟩ := h.declared
  obtain ⟨found, hf, hj⟩ := ho.declared
  have hread : Function.Injective fun symbol => (declares symbol, [symbol]) := by
    intro a b he
    exact List.singleton_injective (Prod.mk.inj he).2
  have hsymbols : symbols = found := List.map_injective_iff.mpr hread (hs.symm.trans hf)
  have hslots := List.singleton_injective (h.reserved.symm.trans ho.reserved)
  have hrepr : capacity.repr = other.repr := List.singleton_injective (Prod.mk.inj hslots).2
  have hdigits : Text.readDigits capacity.repr.toList = Text.readDigits other.repr.toList := by
    rw [hrepr]
  rw [Nat.toList_repr, Nat.toList_repr, Text.readDigits_toDigits,
    Text.readDigits_toDigits] at hdigits
  rw [hsymbols, hj] at hi
  exact ⟨(List.map_injective_iff.mpr (Option.some_injective _) hi).symm, Option.some.inj hdigits⟩

theorem readsAs_assemble (sources : List HandlerSource) (capacity : Nat) :
    ReadsAs (template.assemble (sources.map declaration) sources capacity) (sources.map (·.id))
      capacity where
  declared := by
    have hfixed : ∀ text ∈ fixedLines, declarations? text.toList = none := by
      decide +kernel
    refine ⟨sources.map (·.id.symbol), ?_, ?_⟩
    · rw [readLines_assemble hfixed]
      simp [declarations?_declaration, declarations?_slotsLine, declarations?_registration,
        declares_symbol]
    · simp [Identifier.ofSymbol?_eq_some_iff]
  registered := by
    have hfixed : ∀ text ∈ fixedLines, registrations? text.toList = none := by
      decide +kernel
    refine ⟨sources.map fun source => (source.id.text, source.id.symbol), ?_, ?_, ?_⟩
    · rw [readLines_assemble hfixed]
      simp [registrations?_declaration, registrations?_slotsLine, registrations?_registration,
        registers_symbol]
    · simp
    · simp [Identifier.ofSymbol?_eq_some_iff]
  reserved := by
    have hfixed : ∀ text ∈ fixedLines, reservations? text.toList = none := by
      decide +kernel
    rw [readLines_assemble hfixed]
    simp [reservations?_declaration, reservations?_slotsLine, reservations?_registration]

theorem render_eq (tree : FileTree) (sources : List HandlerSource) (capacity : Nat) :
    template.render tree sources capacity =
      .ok (template.assemble (sources.map declaration) sources capacity) := by
  have hd : List.Forall₂ (fun source text => template.declaration tree source = .ok text) sources
      (sources.map declaration) :=
    List.forall₂_map_right_iff.mpr (List.forall₂_same.mpr fun source _ => rfl)
  exact Template.render_eq_ok_iff.mpr ⟨fun source _ => rfl, _, hd, rfl⟩

/-- A header holds nothing of a handler but its identifier. -/
theorem assemble_congr {sources others : List HandlerSource}
    (h : sources.map (·.id) = others.map (·.id)) (capacity : Nat) :
    template.assemble (sources.map declaration) sources capacity =
      template.assemble (others.map declaration) others capacity := by
  have hd : sources.map declaration = others.map declaration :=
    Template.map_eq_of_ids h fun id => declares id.symbol
  have hr : sources.map registration = others.map registration :=
    Template.map_eq_of_ids h fun id => registers id.text id.symbol
  rw [assemble_eq, assemble_eq, hd, hr]

/-- Every list of handlers and every number of slots has a header, which can be read back; two
headers are equal exactly if the identifiers and the numbers of slots are. -/
theorem header_reads_back :
    (∀ (tree : FileTree) (sources : List HandlerSource) (capacity : Nat), ∃ text,
      template.render tree sources capacity = .ok text ∧
        ReadsAs text (sources.map (·.id)) capacity) ∧
    ∀ (tree otherTree : FileTree) (sources others : List HandlerSource)
      (capacity otherCapacity : Nat),
      template.render tree sources capacity = template.render otherTree others otherCapacity ↔
        sources.map (·.id) = others.map (·.id) ∧ capacity = otherCapacity := by
  constructor
  · intro tree sources capacity
    exact ⟨_, render_eq tree sources capacity, readsAs_assemble sources capacity⟩
  · intro tree otherTree sources others capacity otherCapacity
    rw [render_eq, render_eq, Except.ok.injEq]
    constructor
    · intro h
      have hr := readsAs_assemble sources capacity
      rw [h] at hr
      exact hr.unique (readsAs_assemble others otherCapacity)
    · rintro ⟨hi, rfl⟩
      exact assemble_congr hi capacity

end HandlerRegistry.Artifact.CHeader
