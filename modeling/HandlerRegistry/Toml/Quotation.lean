import HandlerRegistry.Text.Hex
import HandlerRegistry.Toml.Scan

/-!
# Strings of a document

Basic strings stand in double quotes and have escapes, literal strings in single quotes and have
none. Three quotes make a string of either sort span lines.

* `basicString`, `literalString`: the rest of a string after its opening quote.
* `basicBlock`, `literalBlock`: the rest of a string after its three opening quotes.
-/

namespace HandlerRegistry.Toml
set_option autoImplicit false

/-! ## Escapes -/

/-- The value of a given number of hexadecimal digits, after those that are read. -/
def hexDigits (value : Nat) : Nat → Scan Nat
  | 0, input => some (value, input)
  | _ + 1, [] => none
  | count + 1, c :: rest =>
    match Text.hexDigit? c with
    | some digit => hexDigits (value * 16 + digit) count rest
    | none => none

/-- The character whose code point is written in a given number of hexadecimal digits. -/
def codePoint (count : Nat) (input : List Char) : Option (Char × List Char) :=
  match hexDigits 0 count input with
  | some (value, rest) => if value.isValidChar then some (Char.ofNat value, rest) else none
  | none => none

/-- The character that an escape stands for, after its backslash. -/
def escapeScan : Scan Char
  | 'b' :: rest => some ('\x08', rest)
  | 't' :: rest => some ('\t', rest)
  | 'n' :: rest => some ('\n', rest)
  | 'f' :: rest => some ('\x0C', rest)
  | 'r' :: rest => some ('\r', rest)
  | 'e' :: rest => some ('\x1B', rest)
  | '"' :: rest => some ('"', rest)
  | '\\' :: rest => some ('\\', rest)
  | 'x' :: rest => codePoint 2 rest
  | 'u' :: rest => codePoint 4 rest
  | 'U' :: rest => codePoint 8 rest
  | _ => none

/-! ## Strings on one line -/

/-- One item of a basic string: a character, an escape or the closing quote. -/
def basicItem : Scan (List Char × Bool)
  | [] => none
  | '"' :: rest => some (([], true), rest)
  | '\\' :: rest => (escapeScan rest).map fun read => (([read.1], false), read.2)
  | c :: rest => if isPlain c then some (([c], false), rest) else none

/-- One item of a literal string: a character or the closing quote. -/
def literalItem : Scan (List Char × Bool)
  | [] => none
  | '\'' :: rest => some (([], true), rest)
  | c :: rest => if isPlain c then some (([c], false), rest) else none

/-- The text of a basic string after its opening quote. -/
def basicString : Scan String := fun input =>
  (repeatScan basicItem input).map fun read => (String.ofList read.1, read.2)

/-- The text of a literal string after its opening quote. -/
def literalString : Scan String := fun input =>
  (repeatScan literalItem input).map fun read => (String.ofList read.1, read.2)

/-! ## Strings that span lines -/

/-- The input after three quotes that close a string, and the quotes of one kind that belong to the
text before them: up to two more can precede the closing ones. -/
def closing? (quote : Char) : List Char → Option (List Char × List Char)
  | a :: b :: c :: rest =>
    if a = quote ∧ b = quote ∧ c = quote then
      match rest with
      | d :: e :: after =>
        if d = quote ∧ e = quote then some ([quote, quote], after)
        else if d = quote then some ([quote], e :: after)
        else some ([], rest)
      | [d] => if d = quote then some ([quote], []) else some ([], rest)
      | [] => some ([], rest)
    else none
  | _ => none

/-- A line end inside a string, or a character that may stand there. -/
def blockChar : Scan (List Char × Bool)
  | '\r' :: '\n' :: rest => some ((['\r', '\n'], false), rest)
  | c :: rest => if c == '\n' || isPlain c then some (([c], false), rest) else none
  | [] => none

/-- What follows a backslash: an escape, or a line end that is skipped with all blanks and line ends
after it. -/
def blockEscape (input : List Char) : Option ((List Char × Bool) × List Char) :=
  match skipBlank input with
  | '\n' :: rest => some (([], false), skipLines rest)
  | '\r' :: '\n' :: rest => some (([], false), skipLines rest)
  | _ => (escapeScan input).map fun read => (([read.1], false), read.2)

/-- One item of a basic string that spans lines. -/
def basicBlockItem (input : List Char) : Option ((List Char × Bool) × List Char) :=
  match closing? '"' input with
  | some (quotes, rest) => some ((quotes, true), rest)
  | none =>
    match input with
    | '\\' :: rest => blockEscape rest
    | _ => blockChar input

/-- One item of a literal string that spans lines. -/
def literalBlockItem (input : List Char) : Option ((List Char × Bool) × List Char) :=
  match closing? '\'' input with
  | some (quotes, rest) => some ((quotes, true), rest)
  | none => blockChar input

/-- The input without a line end at its very beginning. -/
def skipFirstLine : List Char → List Char
  | '\n' :: rest => rest
  | '\r' :: '\n' :: rest => rest
  | input => input

/-- The text of a basic string after its three opening quotes. -/
def basicBlock : Scan String := fun input =>
  (repeatScan basicBlockItem (skipFirstLine input)).map fun read => (String.ofList read.1, read.2)

/-- The text of a literal string after its three opening quotes. -/
def literalBlock : Scan String := fun input =>
  (repeatScan literalBlockItem (skipFirstLine input)).map fun read =>
    (String.ofList read.1, read.2)

def anyString : Scan String
  | '"' :: '"' :: '"' :: rest => basicBlock rest
  | '\'' :: '\'' :: '\'' :: rest => literalBlock rest
  | '"' :: rest => basicString rest
  | '\'' :: rest => literalString rest
  | _ => none

/-! ## Keys -/

/-- Whether a character may stand in a key without quotes. -/
def isBareKeyChar (c : Char) : Bool := c.isAlphanum || c == '_' || c == '-'

def keyPart : Scan String
  | '"' :: rest => basicString rest
  | '\'' :: rest => literalString rest
  | input =>
    match input.takeWhile isBareKeyChar with
    | [] => none
    | bare => some (String.ofList bare, input.dropWhile isBareKeyChar)

/-- A further part of a dotted key, or its end. -/
def keyTail (input : List Char) : Option ((List String × Bool) × List Char) :=
  match skipBlank input with
  | '.' :: rest => (keyPart (skipBlank rest)).map fun read => (([read.1], false), read.2)
  | _ => some (([], true), input)

/-- The most parts that a dotted key may have. -/
def maxKeyParts : Nat := 80

/-- A key: the parts above its last one, and the last one. -/
def keyScan : Scan (List String × String) := fun input =>
  match keyPart input with
  | none => none
  | some (first, rest) =>
    match repeatScan keyTail rest with
    | none => none
    | some (more, rest) =>
      if maxKeyParts ≤ more.length then none
      else some (((first :: more).dropLast, more.getLast?.getD first), rest)

end HandlerRegistry.Toml
