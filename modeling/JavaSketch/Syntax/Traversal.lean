import JavaSketch.Syntax.Node

/-!
# Walking a syntax tree

What a node means can depend on the node it is a child of, so a walk lists
sites: nodes together with their parents.  The walk keeps the sites that are
still to be listed on a stack and replaces the top one by its children, which
needs no recursion as deep as the tree.

**Results.**
* `walk_cons`: listing a site puts its children before the rest of the stack.
* `stackSize_children_append`: that leaves fewer nodes to list, so a walk ends.
-/

namespace JavaSketch
namespace Syntax

/-- A node in the place it has in its tree. -/
structure Site where
  /-- The node this one is a child of; the root has none. -/
  parent : Option Node
  /-- The node itself. -/
  node : Node
  deriving Inhabited, Repr

namespace Site

/-- The sites of the children of a node. -/
def children (site : Site) : List Site :=
  site.node.children.map fun child => ⟨some site.node, child⟩

/-- The number of nodes below and at the sites of a stack. -/
def stackSize (stack : List Site) : Nat :=
  Node.sizeAll (stack.map Site.node)

theorem stackSize_children_append (site : Site) (rest : List Site) :
    stackSize (site.children ++ rest) < stackSize (site :: rest) := by
  have nodes : site.children.map Site.node = site.node.children := by
    simp [children, Function.comp_def]
  simp only [stackSize, List.map_append, List.map_cons, nodes,
    Node.sizeAll_append, Node.sizeAll, Node.size_eq site.node]
  omega

/-- The sites of a stack of trees in document order. -/
def walk : List Site → List Site
  | [] => []
  | site :: rest => site :: walk (site.children ++ rest)
termination_by stack => stackSize stack
decreasing_by exact stackSize_children_append site rest

theorem walk_nil : walk [] = [] := by
  rw [walk]

theorem walk_cons (site : Site) (rest : List Site) :
    walk (site :: rest) = site :: walk (site.children ++ rest) := by
  rw [walk]

end Site

namespace Node

/-- The sites of a tree in document order, from a root that has no parent. -/
def sites (root : Node) : List Site :=
  Site.walk [⟨none, root⟩]

/-- The sites whose nodes have one of some symbols, in document order. -/
def findSites (root : Node) (types : List String) : List Site :=
  root.sites.filter (types.contains ·.node.type)

/-- The nodes of a tree in document order. -/
def walk (root : Node) : List Node :=
  root.sites.map Site.node

/-- The nodes that have one of some symbols, in document order. -/
def findAll (root : Node) (types : List String) : List Node :=
  root.walk.filter (types.contains ·.type)

end Node

end Syntax
end JavaSketch
