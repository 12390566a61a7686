import JavaSketch.Failure
import JavaSketch.Syntax.SourceUnit

/-!
# Reading a source text

Whatever builds the syntax tree is a parameter: a parser is a function that
gives every text a tree, with the errors it met marked in the tree.  A text is
refused when its tree has an error.
-/

namespace JavaSketch
namespace Syntax

/-- A way to give a normalised text a syntax tree. -/
abbrev Parser := String → Node

namespace SourceUnit

/-- The place of the first error of a tree, in words. -/
def errorPlace (unit : SourceUnit) : String :=
  match unit.root.firstError with
  | some node => "line " ++ toString (unit.startLine node)
  | none => "unknown line"

/-- The source unit of a normalised text and its tree, if that has no error. -/
def ofTree (path text : String) (root : Node) : Except Failure SourceUnit :=
  let unit : SourceUnit := ⟨path, text, root⟩
  if root.hasError then
    .error (.unparsable path ("syntax error near " ++ unit.errorPlace))
  else .ok unit

/-- Reads a text with any kind of line ends. -/
def read (parse : Parser) (path text : String) : Except Failure SourceUnit :=
  let normalized := Text.normalizeNewlines text
  ofTree path normalized (parse normalized)

end SourceUnit

end Syntax
end JavaSketch
