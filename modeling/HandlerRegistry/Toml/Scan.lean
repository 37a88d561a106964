/-!
# Scanning characters

A scanner takes a beginning of the characters and leaves the rest, or fails. Blanks, line ends and
comments of a document are scanned here.

* `repeatScan`: a scanner repeated until it says that it is done.
* `skipBlank`, `skipVoid`: what may stand between the parts of a line, or of a bracketed value.
* `lineEnd`: the end of a line, with a comment before it.
-/

namespace HandlerRegistry.Toml
set_option autoImplicit false

/-- A scanner: what it reads, and the characters it leaves. -/
abbrev Scan (α : Type) := List Char → Option (α × List Char)

/-- The items of at most a given number of scans, one after another, until one of them says that it
is the last. -/
def repeatUpTo {α : Type} (scan : Scan (List α × Bool)) : Nat → Scan (List α)
  | 0, _ => none
  | count + 1, input =>
    match scan input with
    | none => none
    | some ((items, true), rest) => some (items, rest)
    | some ((items, false), rest) =>
      match repeatUpTo scan count rest with
      | none => none
      | some (more, rest) => some (items ++ more, rest)

/-- The items of one scan after another, until one of them says that it is the last. As long as
every scan takes at least one character, the number of characters is bound enough. -/
def repeatScan {α : Type} (scan : Scan (List α × Bool)) : Scan (List α) := fun input =>
  repeatUpTo scan (input.length + 1) input

/-! ## Blanks -/

def isBlank (c : Char) : Bool := c == ' ' || c == '\t'

def skipBlank (input : List Char) : List Char := input.dropWhile isBlank

/-- Whether a character may stand in a comment or a string: no control character but the tab. -/
def isPlain (c : Char) : Bool := c == '\t' || (0x20 ≤ c.toNat && c.toNat != 0x7F)

def skipLines : List Char → List Char
  | '\r' :: '\n' :: rest => skipLines rest
  | c :: rest => if isBlank c || c == '\n' then skipLines rest else c :: rest
  | [] => []

/-- The input after blanks, line ends and comments; `inComment` says that a comment has begun. -/
def skipVoidFrom : Bool → List Char → List Char
  | _, '\r' :: '\n' :: rest => skipVoidFrom false rest
  | inComment, c :: rest =>
    if c == '\n' then skipVoidFrom false rest
    else if inComment then
      if isPlain c then skipVoidFrom true rest else c :: rest
    else if isBlank c then skipVoidFrom false rest
    else if c == '#' then skipVoidFrom true rest
    else c :: rest
  | _, [] => []

/-- The input after blanks, line ends and comments. -/
def skipVoid (input : List Char) : List Char := skipVoidFrom false input

/-! ## Ends of lines -/

/-- One line end, if the input begins with one or is at its end. -/
def newline? : List Char → Option (List Char)
  | [] => some []
  | '\n' :: rest => some rest
  | '\r' :: '\n' :: rest => some rest
  | _ => none

/-- The rest of a line that holds nothing more than a comment. -/
def lineEnd (input : List Char) : Option (List Char) :=
  match skipBlank input with
  | '#' :: comment => newline? (comment.dropWhile isPlain)
  | rest => newline? rest

end HandlerRegistry.Toml
