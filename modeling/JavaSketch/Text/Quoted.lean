import JavaSketch.Text.Hex
import JavaSketch.Text.Printable

/-!
# Quoted text in messages

A message shows a piece of source text between quotes, on one line, with every
character that could not be seen written as an escape.

**Rules.**
* The quote is the apostrophe, or the double quote when the text holds an
  apostrophe and no double quote.
* The backslash and the quote in use are preceded by a backslash; LF, CR and TAB
  have escapes of one letter.
* Any other character that is not printable is named by its code point, in the
  shortest of the forms with two, four and eight digits.
-/

namespace JavaSketch
namespace Text

/-- The quote that surrounds a text. -/
def quoteFor (cs : List Char) : Char :=
  if cs.contains '\'' && !cs.contains '"' then '"' else '\''

/-- A character by its code point, in the shortest escape that has room. -/
def codePointEscape (c : Char) : List Char :=
  if c.toNat ≤ 0xFF then '\\' :: 'x' :: hexChars 2 c.toNat
  else if c.toNat ≤ 0xFFFF then '\\' :: 'u' :: hexChars 4 c.toNat
  else '\\' :: 'U' :: hexChars 8 c.toNat

/-- One character of a text quoted by `quote`. -/
def quotedChar (quote c : Char) : List Char :=
  if c = quote ∨ c = '\\' then ['\\', c]
  else if c = '\n' then ['\\', 'n']
  else if c = '\r' then ['\\', 'r']
  else if c = '\t' then ['\\', 't']
  else if isPrintable c then [c]
  else codePointEscape c

/-- The characters of a quoted text, quotes included. -/
def quotedChars (cs : List Char) : List Char :=
  let quote := quoteFor cs
  quote :: cs.flatMap (quotedChar quote) ++ [quote]

/-- A text as it is shown in a message. -/
def quoted (text : String) : String :=
  String.ofList (quotedChars text.toList)

end Text
end JavaSketch
