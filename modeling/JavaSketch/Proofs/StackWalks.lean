import JavaSketch.Proofs.Positions
import Mathlib.Logic.Function.Iterate

/-!
# The walk as a loop over a stack

A walk can be run as a loop that has a stack whose top is its last entry.  A turn takes the
top off, lists it, and puts the children of its node on the stack, the last child first, so
that the first child is on top.

**Invariant.**  What the stack still stands for is the walk over its entries from the top
down.  A turn moves the first site of that walk to the end of the list (`listed_step`,
`pending_step`), so that the sites listed and the sites pending always are the whole walk
in a row.

**Termination.**  The number of pending sites is the number of nodes of the trees on the
stack, and every turn lowers it by one.  The length of the stack can grow in a turn.

**Results.**
* `listed_iterate`, `pending_iterate`: the loop after any number of turns.
* `stack_iterate_eq_nil_iff`: the number of turns after which the loop ends.
* `walk_lists_preorder`: the loop, the walk and the preorder list the same sites.
-/

namespace JavaSketch
namespace Syntax

/-- The state of the loop of a walk. -/
structure WalkState where
  /-- The sites whose trees are still to be walked over, the next one last. -/
  stack : List Site
  /-- The sites that were listed, in their order. -/
  listed : List Site

namespace WalkState

/-- The state in which the walk over a tree begins. -/
def start (root : Node) : WalkState :=
  ⟨[⟨none, root⟩], []⟩

/-- One turn of the loop; with an empty stack the loop has ended. -/
def step (state : WalkState) : WalkState :=
  match state.stack.getLast? with
  | none => state
  | some site => ⟨state.stack.dropLast ++ site.children.reverse, state.listed ++ [site]⟩

/-- The sites that are still to be listed. -/
def pending (state : WalkState) : List Site :=
  Site.walk state.stack.reverse

theorem length_pending (state : WalkState) :
    state.pending.length = Site.stackSize state.stack.reverse := by
  rw [pending, ← List.length_map Site.node, Site.map_node_walk, Node.length_preorderAll,
    Site.stackSize]

theorem pending_eq_nil_iff (state : WalkState) : state.pending = [] ↔ state.stack = [] := by
  rw [pending]
  constructor
  · intro hwalk
    cases hstack : state.stack.reverse with
    | nil => exact List.reverse_eq_nil_iff.mp hstack
    | cons site rest =>
        rw [hstack, Site.walk_cons] at hwalk
        exact absurd hwalk (List.cons_ne_nil _ _)
  · intro hstack
    rw [hstack]
    exact Site.walk_nil

section Top

variable {below : List Site} {site : Site} {listed : List Site}

theorem step_concat : step ⟨below ++ [site], listed⟩ =
    ⟨below ++ site.children.reverse, listed ++ [site]⟩ := by
  rw [step, List.getLast?_concat]
  exact congrArg (WalkState.mk · _) (congrArg (· ++ _) List.dropLast_concat)

/-- The top of the stack is pending before what a turn leaves pending. -/
theorem pending_concat : pending ⟨below ++ [site], listed⟩ =
    site :: (step ⟨below ++ [site], listed⟩).pending := by
  simp only [step_concat, pending, List.reverse_append, List.reverse_singleton,
    List.reverse_reverse, List.singleton_append, Site.walk_cons]

end Top

/-- A turn lists the first of the pending sites. -/
theorem listed_step (state : WalkState) :
    state.step.listed = state.listed ++ state.pending.take 1 := by
  obtain ⟨stack, listed⟩ := state
  rcases List.eq_nil_or_concat stack with rfl | ⟨below, site, rfl⟩
  · have hpending : pending ⟨[], listed⟩ = [] := (pending_eq_nil_iff _).mpr rfl
    rw [hpending, List.take_nil, List.append_nil]
    rfl
  · rw [List.concat_eq_append, pending_concat, step_concat, List.take_succ_cons,
      List.take_zero]

/-- A turn leaves the pending sites but the first. -/
theorem pending_step (state : WalkState) : state.step.pending = state.pending.drop 1 := by
  obtain ⟨stack, listed⟩ := state
  rcases List.eq_nil_or_concat stack with rfl | ⟨below, site, rfl⟩
  · have hpending : pending ⟨[], listed⟩ = [] := (pending_eq_nil_iff _).mpr rfl
    rw [hpending, List.drop_nil]
    exact hpending
  · rw [List.concat_eq_append, pending_concat, List.drop_succ_cons, List.drop_zero]

theorem pending_iterate (state : WalkState) (turns : Nat) :
    (step^[turns] state).pending = state.pending.drop turns := by
  induction turns with
  | zero => rfl
  | succ turns ih => rw [Function.iterate_succ_apply', pending_step, ih, List.drop_drop]

theorem listed_iterate (state : WalkState) (turns : Nat) :
    (step^[turns] state).listed = state.listed ++ state.pending.take turns := by
  induction turns with
  | zero => exact (List.append_nil _).symm
  | succ turns ih =>
      rw [Function.iterate_succ_apply', listed_step, ih, pending_iterate, List.append_assoc,
        ← List.take_add]

/-- The loop ends after as many turns as there are nodes in the trees on the stack. -/
theorem stack_iterate_eq_nil_iff (state : WalkState) (turns : Nat) :
    (step^[turns] state).stack = [] ↔ Site.stackSize state.stack.reverse ≤ turns := by
  rw [← pending_eq_nil_iff, pending_iterate, List.drop_eq_nil_iff, length_pending]

end WalkState

namespace Node

/-- **The loop lists the tree in preorder.**  Walking over a tree by turns, the sites listed
after any number of turns are as many first sites of the walk, and the loop has ended if and
only if there were as many turns as the tree has nodes.  The walk lists the nodes of the
preorder: the root and then, child by child from left to right, what a walk over the child
lists.  Its sites are the sites of the tree with their places left out, and no place of the
tree comes twice.  Looking for nodes with some symbols, with or without their parents, finds
the nodes of the preorder that have one of them, in this order. -/
theorem walk_lists_preorder (root : Node) :
    (∀ turns, (WalkState.step^[turns] (WalkState.start root)).listed = root.sites.take turns ∧
      ((WalkState.step^[turns] (WalkState.start root)).stack = [] ↔ root.size ≤ turns)) ∧
    root.walk = root.preorder ∧
    root.walk = root :: root.children.flatMap walk ∧
    root.placedSites.map Prod.snd = root.sites ∧
    (root.placedSites.map Prod.fst).Nodup ∧
    (∀ place site, (place, site) ∈ root.placedSites ↔ root.siteAt? place = some site) ∧
    ∀ types : List String,
      root.findAll types = root.preorder.filter (fun node => node.type ∈ types) ∧
      (root.findSites types).map Site.node = root.findAll types := by
  have hwalk : walk = preorder := funext map_node_sites
  refine ⟨fun turns => ⟨?_, ?_⟩, congrFun hwalk root, ?_, root.map_snd_placedSites,
    root.inDocumentOrder_placedSites.nodup, fun place site => mem_placedSites_iff,
    fun types => ⟨?_, (root.findAll_eq_map_findSites types).symm⟩⟩
  · rw [WalkState.listed_iterate]
    rfl
  · rw [WalkState.stack_iterate_eq_nil_iff]
    simp [WalkState.start, Site.stackSize, sizeAll]
  · rw [hwalk, preorder_eq_cons, preorderAll_eq_flatMap]
  · simp [findAll, hwalk]

end Node

end Syntax
end JavaSketch
