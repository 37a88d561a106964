import HandlerRegistry.Toml.Quotation
import HandlerRegistry.Toml.Scalar
import HandlerRegistry.Toml.Table

/-!
# Documents

A document is a list of lines: keys with values, and headers that say to which table the keys after
them belong. A value may span lines.

* `valueScan`: a value with a bound on the depth of brackets in it.
* `statementScan`: what one line states.
* `readDocument`: the entries of the root table of a document.
-/

namespace HandlerRegistry.Toml
set_option autoImplicit false

/-! ## Values -/

/-- One item of an array, or its end. -/
def arrayItem (item : Scan Value) (input : List Char) :
    Option ((List Value × Bool) × List Char) :=
  match skipVoid input with
  | ']' :: rest => some (([], true), rest)
  | start =>
    match item start with
    | none => none
    | some (value, rest) =>
      match skipVoid rest with
      | ',' :: rest => some (([value], false), rest)
      | ']' :: rest => some (([value], true), rest)
      | _ => none

/-- A key with its value. On either side of the equals sign stands what `skip` leaves out. -/
def pairScan (skip : List Char → List Char) (item : Scan Value) :
    Scan ((List String × String) × Value) := fun input =>
  match keyScan input with
  | none => none
  | some (key, rest) =>
    match skip rest with
    | '=' :: rest => (item (skip rest)).map fun read => ((key, read.1), read.2)
    | _ => none

/-- One pair of a table in braces, or its end. Any part of the pair but its key may begin on a line
of its own. -/
def inlineItem (item : Scan Value) (input : List Char) :
    Option ((List ((List String × String) × Value) × Bool) × List Char) :=
  match skipVoid input with
  | '\x7d' :: rest => some (([], true), rest)
  | start =>
    match pairScan skipVoid item start with
    | none => none
    | some (pair, rest) =>
      match skipVoid rest with
      | ',' :: rest => some (([pair], false), rest)
      | '\x7d' :: rest => some (([pair], true), rest)
      | _ => none

/-- The entries that some pairs make in a table. -/
def addPairs (form : TableForm) : List ((List String × String) × Value) → Entries → Option Entries
  | [], entries => some entries
  | (key, value) :: rest, entries => (addPair key value form entries).bind (addPairs form rest)

/-- A value, the brackets and braces in which are read by `inner` if there may be any. -/
def valueWith (inner : Option (Scan Value)) : Scan Value
  | '[' :: rest =>
    match inner with
    | none => none
    | some item =>
      (repeatScan (arrayItem item) rest).map fun read => (.array .literal read.1, read.2)
  | '\x7b' :: rest =>
    match inner with
    | none => none
    | some item =>
      match repeatScan (inlineItem item) rest with
      | none => none
      | some (pairs, rest) =>
        (addPairs .inline pairs []).map fun entries => (.table .inline entries, rest)
  | '"' :: rest => (anyString ('"' :: rest)).map fun read => (.string read.1, read.2)
  | '\'' :: rest => (anyString ('\'' :: rest)).map fun read => (.string read.1, read.2)
  | input => scalarScan input

/-- A value in which brackets and braces are nested at most to the given depth. -/
def valueScan : Nat → Scan Value
  | 0 => valueWith none
  | depth + 1 => valueWith (some (valueScan depth))

/-- The depth to which brackets and braces may be nested. -/
def maxDepth : Nat := 80

/-! ## Lines -/

/-- What a line states. -/
inductive Statement where
  | pair (key : List String × String) (value : Value)
  /-- The keys that follow belong to this table. -/
  | header (key : List String × String)
  /-- The keys that follow belong to a new element of this array. -/
  | element (key : List String × String)

/-- The rest of a header after its opening brackets, which the given text closes. -/
def headerScan (closing : List Char) : Scan (List String × String) := fun input =>
  match keyScan (skipBlank input) with
  | none => none
  | some (key, rest) => (Text.stripStart closing (skipBlank rest)).map fun rest => (key, rest)

def statementScan : Scan Statement
  | '[' :: '[' :: rest => (headerScan [']', ']'] rest).map fun read => (.element read.1, read.2)
  | '[' :: rest => (headerScan [']'] rest).map fun read => (.header read.1, read.2)
  | input =>
    (pairScan skipBlank (valueScan maxDepth) input).map fun read =>
      (.pair read.1.1 read.1.2, read.2)

/-- One line, which may state nothing, or the end of the document. -/
def lineScan (input : List Char) : Option ((List Statement × Bool) × List Char) :=
  if input = [] then some (([], true), [])
  else match lineEnd input with
    | some rest => some (([], false), rest)
    | none =>
      match statementScan (skipBlank input) with
      | none => none
      | some (statement, rest) => (lineEnd rest).map fun rest => (([statement], false), rest)

/-! ## Documents -/

/-- What has been read of a document: the path of the table that keys belong to, and the root. -/
structure Reading where
  current : List String
  root : Entries

/-- A statement added to what has been read. -/
def Reading.add (reading : Reading) : Statement → Option Reading
  | .pair key value =>
    (changeAt .header (addPair key value) reading.current .header reading.root).map fun root =>
      ⟨reading.current, root⟩
  | .header key =>
    (addHeader key reading.root).map fun root => ⟨key.1 ++ [key.2], root⟩
  | .element key =>
    (addElement key reading.root).map fun root => ⟨key.1 ++ [key.2], root⟩

def Reading.addAll : Reading → List Statement → Option Reading
  | reading, [] => some reading
  | reading, statement :: rest => (reading.add statement).bind fun reading => reading.addAll rest

/-- The characters of a document after the byte order mark that may begin it. -/
def skipMark : List Char → List Char
  | '\uFEFF' :: rest => rest
  | input => input

/-- The entries of the root table of a document. -/
def readDocument (text : String) : Option Entries :=
  match repeatScan lineScan (skipMark text.toList) with
  | none => none
  | some (statements, _) => ((⟨[], []⟩ : Reading).addAll statements).map Reading.root

end HandlerRegistry.Toml
