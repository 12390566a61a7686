import JavaSketch.Text.Split

/-!
# Comma-separated tables

A table is written as rows of fields, with commas between the fields and CR LF
after each row.  A field is enclosed in double quotes when it holds a comma, a
double quote or a line end, and a double quote inside it is then written twice.
A row that is one empty field is written as a pair of quotes, since an empty line
would be no row at all.
-/

namespace JavaSketch
namespace Csv

/-- Whether a character makes quotes necessary. -/
def isSpecial (c : Char) : Bool :=
  c == ',' || c == '"' || c == '\r' || c == '\n'

/-- The characters of a field between quotes. -/
def quotedField (cs : List Char) : List Char :=
  '"' :: cs.flatMap (fun c => if c = '"' then ['"', '"'] else [c]) ++ ['"']

/-- The characters of a field as they are written. -/
def fieldChars (cs : List Char) : List Char :=
  if cs.any isSpecial then quotedField cs else cs

/-- The characters of a row without its end. -/
def rowChars (fields : List (List Char)) : List Char :=
  if fields = [[]] then ['"', '"'] else Text.joinWith ',' (fields.map fieldChars)

/-- The characters of a table. -/
def tableChars (rows : List (List (List Char))) : List Char :=
  rows.flatMap fun row => rowChars row ++ ['\r', '\n']

/-- A table as text. -/
def write (rows : List (List String)) : String :=
  String.ofList (tableChars (rows.map (·.map String.toList)))

end Csv
end JavaSketch
