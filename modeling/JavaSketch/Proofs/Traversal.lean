import JavaSketch.Syntax.Traversal

/-!
# Walks and preorders

The walk over a stack of sites lists the trees of the stack one after the other,
each in preorder.

**Results.**
* `Node.induction`: what holds of a node if it holds of its children holds of every node.
* `walk_append`: a walk over two stacks is the two walks in a row.
* `map_node_walk`: a walk lists the nodes in preorder.
* `mem_preorder_trans`: the nodes below a node of a tree are nodes of the tree.
-/

namespace JavaSketch
namespace Syntax

namespace Site

theorem walk_append (left right : List Site) :
    walk (left ++ right) = walk left ++ walk right := by
  induction left using walk.induct with
  | case1 => simp [walk_nil]
  | case2 site rest ih =>
      rw [List.cons_append, walk_cons, walk_cons, ← List.append_assoc, ih,
        List.cons_append]

theorem map_node_children (site : Site) :
    site.children.map Site.node = site.node.children := by
  simp [children, Function.comp_def]

end Site

namespace Node

mutual

/-- What holds of a node if it holds of its children holds of every node. -/
@[elab_as_elim]
theorem induction {motive : Node → Prop}
    (node : ∀ node : Node, (∀ child ∈ node.children, motive child) → motive node) :
    (root : Node) → motive root
  | ⟨type, start, stop, named, missing, field, children⟩ =>
      node ⟨type, start, stop, named, missing, field, children⟩
        (induction_of_mem node children)

theorem induction_of_mem {motive : Node → Prop}
    (node : ∀ node : Node, (∀ child ∈ node.children, motive child) → motive node) :
    (nodes : List Node) → ∀ child ∈ nodes, motive child
  | [], _, hchild => by simp at hchild
  | first :: rest, child, hchild => by
      rcases List.mem_cons.mp hchild with heq | hrest
      · exact heq ▸ induction node first
      · exact induction_of_mem node rest child hrest

end

theorem preorderAll_append (left right : List Node) :
    preorderAll (left ++ right) = preorderAll left ++ preorderAll right := by
  induction left with
  | nil => simp [preorderAll]
  | cons child rest ih => simp [preorderAll, ih]

theorem preorderAll_eq_flatMap (nodes : List Node) :
    preorderAll nodes = nodes.flatMap preorder := by
  induction nodes with
  | nil => rfl
  | cons child rest ih => rw [preorderAll, ih, List.flatMap_cons]

theorem mem_preorder_self (node : Node) : node ∈ node.preorder := by
  rw [preorder_eq_cons]
  exact List.mem_cons_self

theorem mem_preorderAll_of_mem {node child : Node} {nodes : List Node}
    (hchild : child ∈ nodes) (hnode : node ∈ child.preorder) :
    node ∈ preorderAll nodes := by
  induction nodes with
  | nil => simp at hchild
  | cons first rest ih =>
      rw [preorderAll, List.mem_append]
      rcases List.mem_cons.mp hchild with rfl | hrest
      · exact Or.inl hnode
      · exact Or.inr (ih hrest)

theorem mem_preorder_of_mem_children {node child root : Node}
    (hchild : child ∈ root.children) (hnode : node ∈ child.preorder) :
    node ∈ root.preorder := by
  rw [preorder_eq_cons]
  exact List.mem_cons_of_mem root (mem_preorderAll_of_mem hchild hnode)

mutual

/-- The nodes below a node of a tree are nodes of the tree. -/
theorem mem_preorder_trans {node inner : Node} :
    (root : Node) → inner ∈ root.preorder → node ∈ inner.preorder →
      node ∈ root.preorder
  | ⟨type, start, stop, named, missing, field, children⟩, hinner, hnode => by
      rcases List.mem_cons.mp hinner with rfl | hbelow
      · exact hnode
      · exact List.mem_cons_of_mem _ (mem_preorderAll_trans children hbelow hnode)

theorem mem_preorderAll_trans {node inner : Node} :
    (nodes : List Node) → inner ∈ preorderAll nodes → node ∈ inner.preorder →
      node ∈ preorderAll nodes
  | [], hinner, _ => by simp [preorderAll] at hinner
  | child :: rest, hinner, hnode => by
      rw [preorderAll, List.mem_append] at hinner ⊢
      rcases hinner with hfirst | hrest
      · exact Or.inl (mem_preorder_trans child hfirst hnode)
      · exact Or.inr (mem_preorderAll_trans rest hrest hnode)

end

theorem child_mem_preorder {child root : Node} (hchild : child ∈ root.children) :
    child ∈ root.preorder :=
  mem_preorder_of_mem_children hchild (mem_preorder_self child)

end Node

namespace Site

/-- A walk lists the nodes of its trees in preorder. -/
theorem map_node_walk (stack : List Site) :
    (walk stack).map Site.node = Node.preorderAll (stack.map Site.node) := by
  induction stack using walk.induct with
  | case1 => simp [walk_nil, Node.preorderAll]
  | case2 site rest ih =>
      rw [walk_cons, List.map_cons, ih, List.map_append, map_node_children,
        Node.preorderAll_append, List.map_cons, Node.preorderAll,
        Node.preorder_eq_cons, List.cons_append]

end Site

namespace Node

theorem map_node_sites (root : Node) : root.sites.map Site.node = root.preorder := by
  simp [sites, Site.map_node_walk, preorderAll]

theorem node_mem_preorder_of_mem_findSites {root : Node} {types : List String}
    {site : Site} (h : site ∈ root.findSites types) :
    site.node ∈ root.preorder ∧ site.node.type ∈ types := by
  obtain ⟨hsite, htype⟩ := List.mem_filter.mp h
  refine ⟨?_, by simpa using htype⟩
  rw [← map_node_sites]
  exact List.mem_map_of_mem hsite

theorem findAll_eq_map_findSites (root : Node) (types : List String) :
    root.findAll types = (root.findSites types).map Site.node := by
  rw [findAll, walk, List.filter_map]
  rfl

theorem mem_findAll_iff {root node : Node} {types : List String} :
    node ∈ root.findAll types ↔ node ∈ root.preorder ∧ node.type ∈ types := by
  simp [findAll, walk, map_node_sites]

end Node

end Syntax
end JavaSketch
