import JavaSketch.Text.Hex

/-!
# Indented JSON

The values that an index is made of, and their text: one member or item on each
line, two spaces deeper than what holds it, and nothing after the last bracket.

**Rules.**
* The quote, the backslash and the characters below the space are written as
  escapes; every other character stands for itself.
* An array or an object without content is a pair of brackets.
-/

namespace JavaSketch

/-- A JSON value. -/
inductive Json
  | string (text : String)
  | array (items : List Json)
  | object (members : List (String × Json))

namespace Json

/-- One character inside a JSON string. -/
def escapeChar (c : Char) : List Char :=
  if c = '"' ∨ c = '\\' then ['\\', c]
  else if c = '\n' then ['\\', 'n']
  else if c = '\r' then ['\\', 'r']
  else if c = '\t' then ['\\', 't']
  else if c = '\x08' then ['\\', 'b']
  else if c = '\x0c' then ['\\', 'f']
  else if c.toNat < 0x20 then '\\' :: 'u' :: Text.hexChars 4 c.toNat
  else [c]

/-- A text as a JSON string. -/
def stringChars (text : String) : List Char :=
  '"' :: text.toList.flatMap escapeChar ++ ['"']

/-- A line end and the indentation at some depth. -/
def newLine (depth : Nat) : List Char :=
  '\n' :: List.replicate (2 * depth) ' '

mutual

/-- The text of a value whose first line is already indented. -/
def chars (depth : Nat) : Json → List Char
  | string text => stringChars text
  | array items =>
      if items.isEmpty then ['[', ']']
      else '[' :: itemsChars (depth + 1) true items ++ newLine depth ++ [']']
  | object members =>
      if members.isEmpty then ['\x7b', '\x7d']
      else '\x7b' :: membersChars (depth + 1) true members ++ newLine depth ++ ['\x7d']

/-- The items of an array, each on a line of its own; all but the first follow a
comma. -/
def itemsChars (depth : Nat) (isFirst : Bool) : List Json → List Char
  | [] => []
  | item :: rest =>
      (if isFirst then [] else [',']) ++ newLine depth ++ chars depth item
        ++ itemsChars depth false rest

/-- The members of an object, each on a line of its own; all but the first
follow a comma. -/
def membersChars (depth : Nat) (isFirst : Bool) : List (String × Json) → List Char
  | [] => []
  | (name, value) :: rest =>
      (if isFirst then [] else [',']) ++ newLine depth ++ stringChars name ++ [':', ' ']
        ++ chars depth value ++ membersChars depth false rest

end

/-- The text of a value. -/
def write (value : Json) : String :=
  String.ofList (value.chars 0)

end Json

end JavaSketch
