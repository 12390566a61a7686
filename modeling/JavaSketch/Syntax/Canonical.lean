import JavaSketch.Syntax.SourceUnit

/-!
# Canonical text

The canonical text of an expression or declaration is its source on one line,
in a spacing that does not depend on the layout of the source.

**Rules.**
* The parts of operator expressions and of variable declarations are separated
  by one space each; a comma stays with the part before it and a final
  semicolon is left out.
* Parentheses enclose the canonical text of what they hold, without spaces.
* Any other node is joined from its tokens, with one space wherever the source
  has a gap between two of them.  Comments are gaps; string and character
  literals are single tokens.

**Results.**
* `leafTokens_of_comment`: a comment has no tokens.
* `joinTokensFrom_of_empty`: a token without text leaves no trace.
-/

namespace JavaSketch
namespace Syntax

/-- The symbols of comments. -/
def commentTypes : List String :=
  ["line_comment", "block_comment"]

/-- The symbols of literals, whose inner parts are not tokens of their own. -/
def literalTypes : List String :=
  ["string_literal", "character_literal"]

/-- The symbols of the nodes whose parts are separated by spaces. -/
def spacedTypes : List String :=
  ["binary_expression", "assignment_expression", "ternary_expression",
    "variable_declarator", "local_variable_declaration"]

/-- The symbol of an expression in parentheses. -/
def parenthesizedType : String :=
  "parenthesized_expression"

namespace Node

/-- Whether a node is a comment. -/
def isComment (node : Node) : Bool :=
  commentTypes.contains node.type

/-- Whether a node is a literal that is taken as it stands. -/
def isLiteral (node : Node) : Bool :=
  literalTypes.contains node.type

mutual

/-- The tokens of a node in source order, without comments. -/
def leafTokens : Node → List Node
  | ⟨type, start, stop, named, missing, field, children⟩ =>
      let node : Node := ⟨type, start, stop, named, missing, field, children⟩
      if node.isComment then []
      else if node.isLiteral || children.isEmpty then [node]
      else leafTokensOf children

/-- The tokens of some nodes, one node after the other. -/
def leafTokensOf : List Node → List Node
  | [] => []
  | child :: rest => child.leafTokens ++ leafTokensOf rest

end

mutual

/-- What a node is once enclosing parentheses are taken off; a comment that is
first inside them counts as their content. -/
def unwrapParens : Node → Node
  | ⟨type, start, stop, named, missing, field, children⟩ =>
      let node : Node := ⟨type, start, stop, named, missing, field, children⟩
      if type == parenthesizedType then (unwrapFirstNamed children).getD node else node

/-- The first named node of some nodes, with its parentheses taken off. -/
def unwrapFirstNamed : List Node → Option Node
  | [] => none
  | child :: rest =>
      if child.named then some child.unwrapParens else unwrapFirstNamed rest

end

theorem leafTokens_eq (node : Node) :
    node.leafTokens =
      if node.isComment then []
      else if node.isLiteral || node.children.isEmpty then [node]
      else leafTokensOf node.children := by
  cases node
  rfl

theorem unwrapParens_eq (node : Node) :
    node.unwrapParens =
      if node.type == parenthesizedType then (unwrapFirstNamed node.children).getD node
      else node := by
  cases node
  rfl

theorem leafTokens_of_comment {node : Node} (h : node.isComment) :
    node.leafTokens = [] := by
  rw [leafTokens_eq, if_pos h]

end Node

namespace SourceUnit

/-- The texts of some tokens, with a space before each token that does not
follow on at `last`, the end of the token before. -/
def joinTokensFrom (unit : SourceUnit) : Option Nat → List Node → String
  | _, [] => ""
  | last, token :: rest =>
      let text := unit.nodeText token
      if text = "" then unit.joinTokensFrom last rest
      else
        let gap := if last.any (· < token.start) then " " else ""
        gap ++ text ++ unit.joinTokensFrom (some token.stop) rest

/-- The tokens of a node, with one space wherever the source has a gap. -/
def joinTokens (unit : SourceUnit) (node : Node) : String :=
  unit.joinTokensFrom none node.leafTokens

mutual

/-- The canonical text of a node. -/
def canonicalText (unit : SourceUnit) : Node → String
  | ⟨type, start, stop, named, missing, field, children⟩ =>
      let node : Node := ⟨type, start, stop, named, missing, field, children⟩
      if type == parenthesizedType && children.any (·.named) then
        "(" ++ canonicalFirstNamed unit children ++ ")"
      else if spacedTypes.contains type then
        Text.join " " (canonicalParts unit [] children)
      else unit.joinTokens node

/-- The canonical text of the first named node of some nodes. -/
def canonicalFirstNamed (unit : SourceUnit) : List Node → String
  | [] => ""
  | child :: rest =>
      if child.named then canonicalText unit child else canonicalFirstNamed unit rest

/-- The spaced parts of some nodes, after the parts `done` (the latest first). -/
def canonicalParts (unit : SourceUnit) (done : List String) : List Node → List String
  | [] => done.reverse
  | child :: rest =>
      if child.type = ";" then canonicalParts unit done rest
      else if child.type = "," ∧ done ≠ [] then
        canonicalParts unit (done.modifyHead (· ++ ",")) rest
      else
        let text := canonicalText unit child
        if text = "" then canonicalParts unit done rest
        else canonicalParts unit (text :: done) rest

end

theorem canonicalText_eq (unit : SourceUnit) (node : Node) :
    unit.canonicalText node =
      if node.type == parenthesizedType && node.children.any (·.named) then
        "(" ++ unit.canonicalFirstNamed node.children ++ ")"
      else if spacedTypes.contains node.type then
        Text.join " " (unit.canonicalParts [] node.children)
      else unit.joinTokens node := by
  cases node
  rfl

theorem joinTokensFrom_of_empty {unit : SourceUnit} {last : Option Nat}
    {token : Node} {rest : List Node} (h : unit.nodeText token = "") :
    unit.joinTokensFrom last (token :: rest) = unit.joinTokensFrom last rest := by
  simp [joinTokensFrom, h]

end SourceUnit

end Syntax
end JavaSketch
