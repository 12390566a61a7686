/-!
# Concrete syntax trees

A node covers a range of bytes of a source text and carries the grammar symbol
it was read as.  Punctuation and keywords are nodes too; the nodes that stand
for grammar rules are marked as named, and a node the parser made up to get past
an error is marked as missing.

**Results.**
* `preorder_eq_cons`: a node comes first in its own preorder.
* `length_preorder`: a tree of size `n` lists `n` nodes.
-/

namespace JavaSketch
namespace Syntax

/-- A node of a concrete syntax tree over the bytes `start` to `stop`. -/
structure Node where
  /-- The grammar symbol, such as `if_statement` or `;`. -/
  type : String
  /-- The offset of the first byte. -/
  start : Nat
  /-- The offset after the last byte. -/
  stop : Nat
  /-- Whether the symbol is a rule of the grammar and not a literal token. -/
  named : Bool
  /-- Whether the parser supplied the node to recover from an error. -/
  missing : Bool
  /-- The role the node has in its parent. -/
  field : Option String
  /-- The parts of the node in source order. -/
  children : List Node
  deriving Inhabited, Repr

namespace Node

/-- The first child with a role. -/
def childByField (node : Node) (field : String) : Option Node :=
  node.children.find? (·.field == some field)

/-- The first child that has one of some symbols. -/
def childOfType (node : Node) (types : List String) : Option Node :=
  node.children.find? (types.contains ·.type)

/-- The children that stand for grammar rules. -/
def namedChildren (node : Node) : List Node :=
  node.children.filter (·.named)

/-- The symbols of the modifiers and annotations of a declaration. -/
def modifierTypes (declaration : Node) : List String :=
  match declaration.childOfType ["modifiers"] with
  | some modifiers => modifiers.children.map (·.type)
  | none => []

mutual

/-- The number of nodes in a tree. -/
def size : Node → Nat
  | ⟨_, _, _, _, _, _, children⟩ => sizeAll children + 1

/-- The number of nodes in some trees. -/
def sizeAll : List Node → Nat
  | [] => 0
  | child :: rest => child.size + sizeAll rest

end

mutual

/-- The nodes of a tree in document order: a node, then the nodes of its
children from left to right. -/
def preorder : Node → List Node
  | ⟨type, start, stop, named, missing, field, children⟩ =>
      ⟨type, start, stop, named, missing, field, children⟩ :: preorderAll children

/-- The nodes of some trees, one tree after the other. -/
def preorderAll : List Node → List Node
  | [] => []
  | child :: rest => child.preorder ++ preorderAll rest

end

theorem size_eq (node : Node) : node.size = sizeAll node.children + 1 := by
  cases node
  rfl

theorem sizeAll_append (left right : List Node) :
    sizeAll (left ++ right) = sizeAll left + sizeAll right := by
  induction left with
  | nil => simp [sizeAll]
  | cons child rest ih => simp [sizeAll, ih, Nat.add_assoc]

theorem preorder_eq_cons (node : Node) :
    node.preorder = node :: preorderAll node.children := by
  cases node
  rfl

mutual

theorem length_preorder : (node : Node) → node.preorder.length = node.size
  | ⟨_, _, _, _, _, _, children⟩ => by
      simp [preorder, size, length_preorderAll children]

theorem length_preorderAll :
    (nodes : List Node) → (preorderAll nodes).length = sizeAll nodes
  | [] => rfl
  | child :: rest => by
      simp [preorderAll, sizeAll, length_preorder child, length_preorderAll rest]

end

end Node

end Syntax
end JavaSketch
