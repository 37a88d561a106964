import HandlerRegistry.Text.Shown

/-!
# Quoted characters and texts

The form in which a character appears in a message and a text in generated source: between quotes,
with escapes for everything that would not be seen or would end the quotation.

* `escape`: a character inside quotes of a given kind.
* `quoted`, `quotedChar`: a text in double quotes, a character in single quotes.
* `quotedList`: several texts in brackets.
-/

namespace HandlerRegistry.Text
set_option autoImplicit false

/-- The escape of a code point by its number: lower-case hexadecimal digits, no padding, in
braces. -/
def escapePoint (c : Char) : List Char :=
  '\\' :: 'u' :: '\x7b' :: (Nat.toDigits 16 c.toNat ++ ['\x7d'])

/-- A character inside quotes. Only the quote that delimits the text is escaped. -/
def escape (quote c : Char) : List Char :=
  if c = '\x00' then ['\\', '0']
  else if c = '\t' then ['\\', 't']
  else if c = '\r' then ['\\', 'r']
  else if c = '\n' then ['\\', 'n']
  else if c = '\\' then ['\\', '\\']
  else if c = quote then ['\\', quote]
  else if isShown c then [c]
  else escapePoint c

/-- The characters between two quotes of one kind. -/
def enclose (quote : Char) (content : List Char) : List Char :=
  quote :: (content.flatMap (escape quote) ++ [quote])

def quoted (text : String) : String := String.ofList (enclose '"' text.toList)

def quotedChar (c : Char) : String := String.ofList (enclose '\'' [c])

def quotedList (texts : List String) : String :=
  "[" ++ ", ".intercalate (texts.map quoted) ++ "]"

theorem toList_quoted (text : String) : (quoted text).toList = enclose '"' text.toList := by
  simp [quoted]

end HandlerRegistry.Text
