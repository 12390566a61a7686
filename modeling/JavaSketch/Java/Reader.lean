import JavaSketch.Java.Declarations
import JavaSketch.Java.Lexer
import JavaSketch.Syntax.Reading

/-!
# Reading Java

A program is cut into tokens, its tokens other than comments are read by the
grammar, and each comment is then put into the innermost node that has tokens on
both sides of it.  A text that is no program becomes a tree with one error, at
the furthest token that reading got to.

**Results.**
* `parse_type`: the tree of every text is that of a program.
-/

namespace JavaSketch
namespace Java

open Grammar (Token)
open Syntax (Node)

/-- How deep rules may contain each other while one token is read. -/
def depthPerToken : Nat :=
  256

/-- Reads the tokens of a program other than comments. -/
def readTokens (tokens : List Token) : Grammar.Reading :=
  Grammar.run rules (depthPerToken * (tokens.length + 1)) program [] tokens 0

mutual

/-- Puts a comment into a node around it. -/
def insertComment (comment : Node) : Node → Node
  | ⟨type, start, stop, named, missing, field, children⟩ =>
      ⟨type, start, stop, named, missing, field, insertAmong comment children⟩

/-- Puts a comment among the children of a node: into the child around it, or
before the first child behind it. -/
def insertAmong (comment : Node) : List Node → List Node
  | [] => [comment]
  | child :: rest =>
      if comment.stop ≤ child.start then comment :: child :: rest
      else if child.start < comment.start ∧ comment.stop < child.stop then
        insertComment comment child :: rest
      else child :: insertAmong comment rest

end

/-- The syntax tree of a text; one without error if the text is a program. -/
def parse (text : String) : Node :=
  let size := text.utf8ByteSize
  let tokens := lex text
  let isComment := fun (token : Token) => commentTypes.contains token.type
  let program : List Node → Node := fun nodes =>
    ⟨"program", (tokens.head?.map (·.start)).getD size, size, true, false, none, nodes⟩
  match readTokens (tokens.filter (!isComment ·)) with
  | ⟨some (nodes, []), _⟩ =>
      program ((tokens.filter isComment).foldl
        (fun nodes comment => insertAmong comment.leaf nodes) nodes)
  | ⟨_, furthest⟩ => program [⟨"ERROR", furthest, size, true, false, none, []⟩]

theorem parse_type (text : String) : (parse text).type = "program" := by
  unfold parse
  simp only
  split <;> rfl

end Java
end JavaSketch
