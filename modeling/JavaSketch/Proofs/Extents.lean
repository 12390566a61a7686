import JavaSketch.Proofs.FoundOnce

/-!
# The extents of nodes

In a tree that a parser has read the parts of a node are inside it, one after the other.
What that says of a node and its children carries over to any two nodes: a node is inside
the nodes above it, and of two nodes neither of which is above the other the earlier one
stops before the later one starts.

**Results.**
* `WellFormed.inside`: the extent of a node below another.
* `WellFormed.stop_le_start`: the extents of nodes apart from each other.
* `lineAt_eq_lineAt_iff`: two offsets are on one line if no line ends between them.
-/

namespace JavaSketch
namespace Syntax

namespace Node

/-- Whether the children of a node are inside it, one after the other. -/
structure PartsInOrder (node : Node) : Prop where
  start_le_stop : node.start ≤ node.stop
  inside : ∀ child ∈ node.children, node.start ≤ child.start ∧ child.stop ≤ node.stop
  successive : node.children.IsChain fun first second => first.stop ≤ second.start

theorem partsInOrder_iff {node : Node} :
    node.PartsInOrder ↔ node.start ≤ node.stop ∧
      (∀ child ∈ node.children, node.start ≤ child.start ∧ child.stop ≤ node.stop) ∧
      node.children.IsChain fun first second => first.stop ≤ second.start :=
  ⟨fun h => ⟨h.start_le_stop, h.inside, h.successive⟩, fun h => ⟨h.1, h.2.1, h.2.2⟩⟩

instance (node : Node) : Decidable node.PartsInOrder :=
  decidable_of_iff' _ partsInOrder_iff

/-- Whether every node of a tree has its children inside it, one after the other. -/
def WellFormed (root : Node) : Prop :=
  ∀ node ∈ root.preorder, node.PartsInOrder

instance (root : Node) : Decidable root.WellFormed :=
  inferInstanceAs (Decidable (∀ node ∈ root.preorder, node.PartsInOrder))

/-- Successive siblings are apart, hence so are any two. -/
theorem pairwise_of_successive {nodes : List Node}
    (horder : ∀ node ∈ nodes, node.start ≤ node.stop)
    (h : nodes.IsChain fun first second => first.stop ≤ second.start) :
    nodes.Pairwise fun first second => first.stop ≤ second.start := by
  induction nodes with
  | nil => exact List.Pairwise.nil
  | cons node rest ih =>
      cases rest with
      | nil => exact List.pairwise_singleton _ _
      | cons next later =>
          obtain ⟨hnext, hsuccessive⟩ := List.isChain_cons_cons.mp h
          have hrest := ih (fun other hother => horder other (List.mem_cons_of_mem node hother))
            hsuccessive
          refine List.pairwise_cons.mpr ⟨fun other hother => ?_, hrest⟩
          rcases List.mem_cons.mp hother with rfl | hlater
          · exact hnext
          · have hfirst : next.stop ≤ other.start := List.rel_of_pairwise_cons hrest hlater
            have horderNext := horder next (by simp)
            omega

namespace WellFormed

variable {root : Node}

theorem partsInOrder (h : root.WellFormed) : root.PartsInOrder :=
  h root (mem_preorder_self root)

theorem of_mem_children (h : root.WellFormed) {child : Node} (hchild : child ∈ root.children) :
    child.WellFormed :=
  fun _ hnode => h _ (mem_preorder_of_mem_children hchild hnode)

theorem pairwise_children (h : root.WellFormed) :
    root.children.Pairwise fun first second => first.stop ≤ second.start :=
  pairwise_of_successive
    (fun _ hchild => (h.of_mem_children hchild).partsInOrder.start_le_stop)
    h.partsInOrder.successive

end WellFormed

section Places

/-- Which node a position leads to does not depend on the parent of the first. -/
theorem map_node_at? (site : Site) (position : Position) :
    (site.at? position).map Site.node = site.node.nodeAt? position := by
  cases position <;> rfl

theorem nodeAt?_cons (node : Node) (index : Nat) (rest : Position) :
    node.nodeAt? (index :: rest) = node.children[index]?.bind (·.nodeAt? rest) := by
  rw [nodeAt?, siteAt?, Site.at?, Site.getElem?_children]
  cases node.children[index]? with
  | none => rfl
  | some child => exact map_node_at? _ rest

theorem nodeAt?_append {root node : Node} {place : Position}
    (h : root.nodeAt? place = some node) (below : Position) :
    root.nodeAt? (place ++ below) = node.nodeAt? below := by
  obtain ⟨site, hsite, rfl⟩ := Option.map_eq_some_iff.mp h
  rw [nodeAt?, siteAt?_append hsite, map_node_at?]

end Places

namespace WellFormed

variable {root node other : Node} {place position : Position}

theorem of_nodeAt? (h : root.WellFormed) (hnode : root.nodeAt? place = some node) :
    node.WellFormed :=
  fun _ hbelow => h _ (mem_preorder_trans root (mem_preorder_of_nodeAt? hnode) hbelow)

/-- A node is inside the root. -/
theorem inside_root (h : root.WellFormed) (hnode : root.nodeAt? place = some node) :
    root.start ≤ node.start ∧ node.stop ≤ root.stop := by
  induction place generalizing root with
  | nil =>
      obtain rfl := Option.some.inj hnode
      exact ⟨Nat.le_refl _, Nat.le_refl _⟩
  | cons index rest ih =>
      rw [nodeAt?_cons, Option.bind_eq_some_iff] at hnode
      obtain ⟨child, hchild, hbelow⟩ := hnode
      have hmem := List.mem_of_getElem? hchild
      have hparts := h.partsInOrder.inside child hmem
      have hinside := ih (h.of_mem_children hmem) hbelow
      omega

/-- A node is inside the nodes above it. -/
theorem inside (h : root.WellFormed) (hnode : root.nodeAt? place = some node)
    (hother : root.nodeAt? position = some other) (habove : place <+: position) :
    node.start ≤ other.start ∧ other.stop ≤ node.stop := by
  obtain ⟨below, rfl⟩ := habove
  rw [nodeAt?_append hnode] at hother
  exact (h.of_nodeAt? hnode).inside_root hother

/-- Of two nodes neither of which is above the other, the earlier one stops before the
later one starts. -/
theorem stop_le_start (h : root.WellFormed) (hnode : root.nodeAt? place = some node)
    (hother : root.nodeAt? position = some other) (hlt : place < position)
    (habove : ¬ place <+: position) : node.stop ≤ other.start := by
  -- both lead through the same children up to where they part
  induction place generalizing root position with
  | nil => exact absurd List.nil_prefix habove
  | cons index rest ih =>
      cases position with
      | nil => exact absurd hlt (List.not_lt_nil _)
      | cons later others =>
          rw [nodeAt?_cons, Option.bind_eq_some_iff] at hnode hother
          obtain ⟨child, hchild, hbelow⟩ := hnode
          obtain ⟨child', hchild', hbelow'⟩ := hother
          have hwell := h.of_mem_children (List.mem_of_getElem? hchild)
          rcases List.cons_lt_cons_iff.mp hlt with hindex | ⟨rfl, hrest⟩
          · have hwell' := h.of_mem_children (List.mem_of_getElem? hchild')
            obtain ⟨hi, rfl⟩ := List.getElem?_eq_some_iff.mp hchild
            obtain ⟨hj, rfl⟩ := List.getElem?_eq_some_iff.mp hchild'
            have hapart :=
              List.pairwise_iff_getElem.mp h.pairwise_children index later hi hj hindex
            have hinside := hwell.inside_root hbelow
            have hinside' := hwell'.inside_root hbelow'
            omega
          · obtain rfl := Option.some.inj (hchild.symm.trans hchild')
            exact ih hwell hbelow hbelow' hrest fun hothers =>
              habove (List.cons_prefix_cons.mpr ⟨rfl, hothers⟩)

end WellFormed

end Node

namespace SourceUnit

/-- Whether no line ends between two offsets. -/
def OnOneLine (unit : SourceUnit) (start stop : Nat) : Prop :=
  0x0A ∉ (unit.bytes.data.toList.take stop).drop start

instance (unit : SourceUnit) (start stop : Nat) : Decidable (unit.OnOneLine start stop) :=
  inferInstanceAs (Decidable (¬ _ ∈ _))

theorem lineAt_eq_lineAt_iff {unit : SourceUnit} {start stop : Nat} (h : start ≤ stop) :
    unit.lineAt start = unit.lineAt stop ↔ unit.OnOneLine start stop := by
  have hcount : ((unit.bytes.data.toList.take stop).take start).count 0x0A +
      ((unit.bytes.data.toList.take stop).drop start).count 0x0A =
        (unit.bytes.data.toList.take stop).count 0x0A := by
    rw [← List.count_append, List.take_append_drop]
  rw [List.take_take, Nat.min_eq_left h] at hcount
  rw [lineAt_eq, lineAt_eq, OnOneLine, ← List.count_eq_zero]
  omega

theorem linesInOrder_of_wellFormed {unit : SourceUnit} (h : unit.root.WellFormed) :
    unit.LinesInOrder := fun _ _ hconstruct =>
  unit.lineAt_mono (h.of_nodeAt? hconstruct.nodeAt?_eq).partsInOrder.start_le_stop

end SourceUnit

end Syntax
end JavaSketch
