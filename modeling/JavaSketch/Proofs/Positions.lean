import JavaSketch.Proofs.Traversal

/-!
# Positions in a tree

A tree can hold equal nodes in different places, so a place is told by the way to it
from the root: the number of the child to take, level by level.  Positions are
compared like words in a dictionary, which puts a node before the nodes below it and
those before the nodes further right: the order of the document.

**Results.**
* `mem_positions_iff`: the positions of a tree are those that lead to a site.
* `pairwise_positions`: they are listed in increasing order, hence each once.
* `walk_singleton`: a walk lists the sites in the order of their positions.
* `append_lt_append_of_not_above`: the order of two places is that of places above them.
* `mem_placedSites_iff`, `inDocumentOrder_placedSites`: the sites of a tree with their places.
-/

namespace JavaSketch
namespace Syntax

/-- The way to a node from the root, as numbers of children from the top down. -/
abbrev Position := List Nat

namespace Site

/-- The site that a position leads to. -/
def at? : Site → Position → Option Site
  | site, [] => some site
  | site, index :: rest => site.children[index]?.bind (·.at? rest)

theorem getElem?_children (site : Site) (index : Nat) :
    site.children[index]? = site.node.children[index]?.map (Site.mk (some site.node)) := by
  simp [children]

theorem at?_append (site : Site) (first second : Position) :
    site.at? (first ++ second) = (site.at? first).bind (·.at? second) := by
  induction first generalizing site with
  | nil => rfl
  | cons index rest ih =>
      simp only [List.cons_append, at?]
      cases site.children[index]? with
      | none => rfl
      | some child => exact ih child

end Site

namespace Node

mutual

/-- The positions of the nodes of a tree in document order. -/
def positions : Node → List Position
  | ⟨_, _, _, _, _, _, children⟩ => [] :: positionsFrom 0 children

/-- The positions of the nodes of some trees, which are children from a number on. -/
def positionsFrom : Nat → List Node → List Position
  | _, [] => []
  | index, child :: rest =>
      child.positions.map (index :: ·) ++ positionsFrom (index + 1) rest

end

theorem positions_eq (node : Node) : node.positions = [] :: positionsFrom 0 node.children := by
  cases node
  rfl

theorem exists_of_mem_positionsFrom {index : Nat} {nodes : List Node} {position : Position}
    (h : position ∈ positionsFrom index nodes) :
    ∃ child rest, index ≤ child ∧ position = child :: rest := by
  induction nodes generalizing index with
  | nil => simp [positionsFrom] at h
  | cons node nodes ih =>
      rw [positionsFrom, List.mem_append] at h
      rcases h with hfirst | hlater
      · obtain ⟨rest, _, rfl⟩ := List.mem_map.mp hfirst
        exact ⟨index, rest, Nat.le_refl index, rfl⟩
      · obtain ⟨child, rest, hchild, rfl⟩ := ih hlater
        exact ⟨child, rest, Nat.le_of_succ_le hchild, rfl⟩

mutual

/-- Positions are listed in increasing order. -/
theorem pairwise_positions : (node : Node) → node.positions.Pairwise (· < ·)
  | ⟨type, start, stop, named, missing, field, children⟩ => by
      rw [positions, List.pairwise_cons]
      refine ⟨fun position hposition => ?_, pairwise_positionsFrom 0 children⟩
      obtain ⟨child, rest, _, rfl⟩ := exists_of_mem_positionsFrom hposition
      exact List.nil_lt_cons child rest

theorem pairwise_positionsFrom :
    (index : Nat) → (nodes : List Node) → (positionsFrom index nodes).Pairwise (· < ·)
  | _, [] => List.Pairwise.nil
  | index, node :: nodes => by
      rw [positionsFrom, List.pairwise_append, List.pairwise_map]
      refine ⟨(pairwise_positions node).imp fun h => List.cons_lt_cons_iff.mpr (Or.inr ⟨rfl, h⟩),
        pairwise_positionsFrom (index + 1) nodes, ?_⟩
      intro first hfirst second hsecond
      obtain ⟨rest, _, rfl⟩ := List.mem_map.mp hfirst
      obtain ⟨child, later, hchild, rfl⟩ := exists_of_mem_positionsFrom hsecond
      exact List.cons_lt_cons_iff.mpr (Or.inl hchild)

end

mutual

/-- A walk over a tree lists the sites that its positions lead to. -/
theorem walk_singleton : (node : Node) → (parent : Option Node) →
    Site.walk [⟨parent, node⟩] = node.positions.filterMap (Site.at? ⟨parent, node⟩)
  | ⟨type, start, stop, named, missing, field, children⟩, parent => by
      rw [Site.walk_cons, List.append_nil, positions, List.filterMap_cons]
      exact congrArg _ (walk_drop _ 0 children rfl)

theorem walk_drop (site : Site) (index : Nat) : (nodes : List Node) →
    site.node.children.drop index = nodes →
      Site.walk (nodes.map (Site.mk (some site.node))) =
        (positionsFrom index nodes).filterMap site.at?
  | [], _ => Site.walk_nil
  | child :: rest, h => by
      have hchild : site.node.children[index]? = some child := by
        rw [← List.head?_drop, h]
        rfl
      have hrest : site.node.children.drop (index + 1) = rest := by
        rw [← List.tail_drop, h]
        rfl
      have hbelow : (fun position => site.at? (index :: position)) =
          Site.at? ⟨some site.node, child⟩ := by
        funext position
        rw [Site.at?, Site.getElem?_children, hchild]
        rfl
      rw [List.map_cons, ← List.singleton_append, Site.walk_append, walk_singleton child,
        walk_drop site (index + 1) rest hrest, positionsFrom, List.filterMap_append,
        List.filterMap_map]
      exact congrArg (fun find => List.filterMap find _ ++ _) hbelow.symm

end

theorem cons_mem_positionsFrom_iff {start index : Nat} {rest : Position} {nodes : List Node} :
    (start + index) :: rest ∈ positionsFrom start nodes ↔
      ∃ child, nodes[index]? = some child ∧ rest ∈ child.positions := by
  induction nodes generalizing start index with
  | nil => simp [positionsFrom]
  | cons node nodes ih =>
      rw [positionsFrom, List.mem_append, List.mem_map]
      cases index with
      | zero =>
          have hlater : start :: rest ∉ positionsFrom (start + 1) nodes := by
            intro hmem
            obtain ⟨child, later, hchild, heq⟩ := exists_of_mem_positionsFrom hmem
            obtain ⟨rfl, rfl⟩ := List.cons.inj heq
            omega
          rw [Nat.add_zero, or_iff_left hlater]
          simp
      | succ index =>
          have hfirst : ¬ ∃ position ∈ node.positions,
              start :: position = (start + (index + 1)) :: rest := by
            rintro ⟨position, _, heq⟩
            have := (List.cons.inj heq).1
            omega
          have hindex : start + (index + 1) = start + 1 + index := by omega
          rw [or_iff_right hfirst, List.getElem?_cons_succ, hindex]
          exact ih

/-- The positions of a tree are those that lead to a site. -/
theorem mem_positions_iff {position : Position} {site : Site} :
    position ∈ site.node.positions ↔ (site.at? position).isSome := by
  induction position generalizing site with
  | nil => simp [positions_eq, Site.at?]
  | cons index rest ih =>
      have hbelow := @cons_mem_positionsFrom_iff 0 index rest site.node.children
      rw [Nat.zero_add] at hbelow
      rw [positions_eq, List.mem_cons, or_iff_right (by simp), hbelow, Site.at?,
        Site.getElem?_children]
      cases site.node.children[index]? with
      | none => simp
      | some child => simpa using @ih ⟨some site.node, child⟩

end Node

section Order

/-- Where neither of two places is above the other, the places below them are in the
same order. -/
theorem append_lt_append_of_not_above {first second : Position} (h : first < second)
    (habove : ¬ first <+: second) (below later : Position) :
    first ++ below < second ++ later := by
  induction first generalizing second with
  | nil => exact absurd List.nil_prefix habove
  | cons index rest ih =>
      cases second with
      | nil => exact absurd h (List.not_lt_nil _)
      | cons other others =>
          rw [List.cons_append, List.cons_append]
          rcases List.cons_lt_cons_iff.mp h with hlt | ⟨rfl, hlt⟩
          · exact List.cons_lt_cons_iff.mpr (Or.inl hlt)
          · have hrest : ¬ rest <+: others := fun hothers =>
              habove (List.cons_prefix_cons.mpr ⟨rfl, hothers⟩)
            exact List.cons_lt_cons_iff.mpr (Or.inr ⟨rfl, ih hlt hrest⟩)

/-- A place is before the places below it. -/
theorem lt_of_above_of_ne {first second : Position} (h : first <+: second)
    (hne : first ≠ second) : first < second := by
  obtain ⟨below, rfl⟩ := h
  cases below with
  | nil => exact absurd (List.append_nil first).symm hne
  | cons index rest =>
      have hbelow : first ++ [] < first ++ index :: rest :=
        List.append_left_lt (List.nil_lt_cons index rest)
      rwa [List.append_nil] at hbelow

end Order

section Placed

variable {α β : Type}

/-- Whether things are listed in the order of their positions. -/
def InDocumentOrder (places : List (Position × α)) : Prop :=
  places.Pairwise fun first second => first.1 < second.1

instance (places : List (Position × α)) : Decidable (InDocumentOrder places) :=
  inferInstanceAs (Decidable (List.Pairwise _ places))

/-- What a partial function makes of things, in the positions of these. -/
def placedFilterMap (f : α → Option β) (places : List (Position × α)) :
    List (Position × β) :=
  places.filterMap fun place => (f place.2).map (place.1, ·)

theorem map_snd_placedFilterMap (f : α → Option β) (places : List (Position × α)) :
    (placedFilterMap f places).map Prod.snd = (places.map Prod.snd).filterMap f := by
  rw [placedFilterMap, List.map_filterMap, List.filterMap_map]
  refine congrArg (places.filterMap ·) (funext fun place => ?_)
  rw [Option.map_map, Function.comp_def, Option.map_id', Function.comp_def]

theorem mem_placedFilterMap_iff {f : α → Option β} {places : List (Position × α)}
    {position : Position} {b : β} :
    (position, b) ∈ placedFilterMap f places ↔ ∃ a, (position, a) ∈ places ∧ f a = some b := by
  simp only [placedFilterMap, List.mem_filterMap, Option.map_eq_some_iff, Prod.mk.injEq]
  constructor
  · rintro ⟨⟨_, a⟩, hmem, _, ha, rfl, rfl⟩
    exact ⟨a, hmem, ha⟩
  · rintro ⟨a, hmem, ha⟩
    exact ⟨(position, a), hmem, b, ha, rfl, rfl⟩

theorem map_fst_placedFilterMap {f : α → Option β} {places : List (Position × α)}
    (h : ∀ place ∈ places, ∃ b, f place.2 = some b) :
    (placedFilterMap f places).map Prod.fst = places.map Prod.fst := by
  induction places with
  | nil => rfl
  | cons place places ih =>
      obtain ⟨b, hb⟩ := h place List.mem_cons_self
      have hrest := ih fun other hother => h other (List.mem_cons_of_mem place hother)
      unfold placedFilterMap at hrest ⊢
      rw [List.filterMap_cons, hb, Option.map_some, List.map_cons, List.map_cons, hrest]

theorem inDocumentOrder_iff_map_fst {places : List (Position × α)} :
    InDocumentOrder places ↔ (places.map Prod.fst).Pairwise (· < ·) :=
  List.pairwise_map.symm

/-- What is made of some things in the order of their positions is in that order. -/
theorem inDocumentOrder_filterMap {γ : Type} {things : List γ} {place : γ → Position}
    {f : γ → Option β} (h : things.Pairwise fun first second => place first < place second) :
    InDocumentOrder (things.filterMap fun thing => (f thing).map (place thing, ·)) := by
  refine List.pairwise_filterMap.mpr (h.imp ?_)
  intro first second hlt placed hplaced later hlater
  obtain ⟨_, _, rfl⟩ := Option.map_eq_some_iff.mp hplaced
  obtain ⟨_, _, rfl⟩ := Option.map_eq_some_iff.mp hlater
  exact hlt

theorem InDocumentOrder.nodup {places : List (Position × α)} (h : InDocumentOrder places) :
    (places.map Prod.fst).Nodup := by
  refine (inDocumentOrder_iff_map_fst.mp h).imp ?_
  rintro first _ hlt rfl
  exact List.lt_irrefl first hlt

theorem InDocumentOrder.filter {places : List (Position × α)} (h : InDocumentOrder places)
    (p : Position × α → Bool) : InDocumentOrder (places.filter p) :=
  List.Pairwise.filter p h

theorem InDocumentOrder.placedFilterMap {places : List (Position × α)}
    (h : InDocumentOrder places) (f : α → Option β) :
    InDocumentOrder (placedFilterMap f places) :=
  inDocumentOrder_filterMap h

end Placed

namespace Node

/-- The site at a position of a tree; the root has no parent. -/
def siteAt? (root : Node) (position : Position) : Option Site :=
  Site.at? ⟨none, root⟩ position

/-- The sites of a tree with their positions, in document order. -/
def placedSites (root : Node) : List (Position × Site) :=
  root.positions.filterMap fun position => (root.siteAt? position).map (position, ·)

theorem mem_placedSites_iff {root : Node} {position : Position} {site : Site} :
    (position, site) ∈ root.placedSites ↔ root.siteAt? position = some site := by
  have hmem := @mem_positions_iff position ⟨none, root⟩
  simp only [placedSites, List.mem_filterMap, Option.map_eq_some_iff, Prod.mk.injEq]
  constructor
  · rintro ⟨_, _, _, hsite, rfl, rfl⟩
    exact hsite
  · intro hsite
    exact ⟨position, hmem.mpr (Option.isSome_of_eq_some hsite), site, hsite, rfl, rfl⟩

theorem map_snd_placedSites (root : Node) : root.placedSites.map Prod.snd = root.sites := by
  rw [placedSites, List.map_filterMap, sites, walk_singleton]
  refine congrArg (root.positions.filterMap ·) (funext fun position => ?_)
  rw [Option.map_map, Function.comp_def, Option.map_id']
  rfl

theorem inDocumentOrder_placedSites (root : Node) : InDocumentOrder root.placedSites :=
  inDocumentOrder_filterMap (pairwise_positions root)

end Node

end Syntax
end JavaSketch
