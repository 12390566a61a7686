import JavaSketch.Proofs.CanonicalTokens

/-!
# Canonical texts and layout

A canonical text does not tell how its source was laid out.  It is told by the shape of
the tree, by the texts of its tokens, and by where tokens that are joined have a gap
between them, be it a blank, a line break or a comment of any length.

Only joined tokens count.  What stands between the parts of a spaced node, or between
parentheses and what they hold, makes no difference, and neither do the offsets.

**Definitions.**
* `outline`: a tree without the places of its nodes.
* `gaps`: where the tokens of a node have gaps between them.
* `joinedNodes`: the nodes whose tokens a canonical text joins.

**Results.**
* `length_leafTokens_outline`: how many tokens a node has is told by its outline.
* `joinTokens_eq_joinAtGaps`: joined tokens are told by their texts and gaps.
* `isJoined_of_mem_joinedNodes`: the joined nodes are put together from their tokens.
* `canonicalText_eq_of_same_layout`: what a canonical text depends on.
-/

namespace JavaSketch

open Syntax

namespace Syntax

namespace Node

mutual

/-- A tree without the places, the roles and the origin of its nodes. -/
def outline : Node → Node
  | ⟨type, _, _, named, _, _, children⟩ =>
      ⟨type, 0, 0, named, false, none, outlineAll children⟩

/-- Some trees without the places of their nodes. -/
def outlineAll : List Node → List Node
  | [] => []
  | child :: rest => child.outline :: outlineAll rest

end

@[simp] theorem type_outline (node : Node) : node.outline.type = node.type := by
  cases node
  rfl

@[simp] theorem isComment_outline (node : Node) :
    node.outline.isComment = node.isComment := by
  simp [isComment]

@[simp] theorem isLiteral_outline (node : Node) :
    node.outline.isLiteral = node.isLiteral := by
  simp [isLiteral]

@[simp] theorem named_outline (node : Node) : node.outline.named = node.named := by
  cases node
  rfl

@[simp] theorem children_outline (node : Node) :
    node.outline.children = outlineAll node.children := by
  cases node
  rfl

theorem outlineAll_eq_map (nodes : List Node) : outlineAll nodes = nodes.map outline := by
  induction nodes with
  | nil => rfl
  | cons child rest ih => rw [outlineAll, ih, List.map_cons]

theorem length_leafTokensOf_outlineAll {nodes : List Node}
    (h : ∀ child ∈ nodes, child.outline.leafTokens.length = child.leafTokens.length) :
    (leafTokensOf (outlineAll nodes)).length = (leafTokensOf nodes).length := by
  induction nodes with
  | nil => rfl
  | cons child rest ih =>
      have hchild := h child List.mem_cons_self
      have hrest := ih fun node hnode => h node (List.mem_cons_of_mem child hnode)
      simp [outlineAll, leafTokensOf, hchild, hrest]

/-- How many tokens a node has does not depend on their places. -/
theorem length_leafTokens_outline (node : Node) :
    node.outline.leafTokens.length = node.leafTokens.length := by
  induction node using Node.induction with
  | node node ih =>
      have hparts := length_leafTokensOf_outlineAll ih
      have hempty : (outlineAll node.children).isEmpty = node.children.isEmpty := by
        rw [outlineAll_eq_map, List.isEmpty_map]
      rw [leafTokens_eq, leafTokens_eq node, isComment_outline, isLiteral_outline,
        children_outline, hempty]
      by_cases hcomment : node.isComment
      · simp [hcomment]
      by_cases hsingle : node.isLiteral || node.children.isEmpty
      · simp [hcomment, hsingle]
      · simp [hcomment, hsingle, hparts]

variable {node node' : Node}

theorem type_eq_of_outline_eq (h : node.outline = node'.outline) : node.type = node'.type := by
  rw [← type_outline, h, type_outline]

theorem named_eq_of_outline_eq (h : node.outline = node'.outline) :
    node.named = node'.named := by
  rw [← named_outline, h, named_outline]

theorem outlineAll_children_eq (h : node.outline = node'.outline) :
    outlineAll node.children = outlineAll node'.children := by
  rw [← children_outline, h, children_outline]

theorem any_named_outlineAll (nodes : List Node) :
    (outlineAll nodes).any (·.named) = nodes.any (·.named) := by
  simp [outlineAll_eq_map, Function.comp_def]

@[simp] theorem outlineAll_eq_nil_iff {nodes : List Node} :
    outlineAll nodes = [] ↔ nodes = [] := by
  rw [outlineAll_eq_map, List.map_eq_nil_iff]

/-- Nodes with the outlines of some nodes are a first one and those after it, too. -/
theorem exists_of_outlineAll_cons {child : Node} {rest nodes' : List Node}
    (h : outlineAll (child :: rest) = outlineAll nodes') :
    ∃ child' rest', nodes' = child' :: rest' ∧ child.outline = child'.outline ∧
      outlineAll rest = outlineAll rest' := by
  cases nodes' with
  | nil => simp [outlineAll] at h
  | cons child' rest' =>
      obtain ⟨hchild, hrest⟩ := List.cons.inj h
      exact ⟨child', rest', rfl, hchild, hrest⟩

end Node

namespace SourceUnit

variable {unit unit' : SourceUnit}

/-- The tokens of a node that have a text. -/
def shownLeaves (unit : SourceUnit) (node : Node) : List Node :=
  node.leafTokens.filter (unit.nodeText · ≠ "")

/-- For each of some tokens but the last, whether the next one starts after a gap. -/
def gapsBetween (tokens : List Node) : List Bool :=
  tokens.zipWith (fun token next => decide (token.stop < next.start)) tokens.tail

/-- Where the tokens of a node that have a text have gaps between them. -/
def gaps (unit : SourceUnit) (node : Node) : List Bool :=
  gapsBetween (unit.shownLeaves node)

/-- Some texts with a space at each gap between them. -/
def joinAtGaps : List String → List Bool → String
  | [], _ => ""
  | text :: _, [] => text
  | text :: rest, gap :: gaps => text ++ (if gap then " " else "") ++ joinAtGaps rest gaps

theorem joinTokensFrom_filter (last : Option Nat) (tokens : List Node) :
    unit.joinTokensFrom last (tokens.filter (unit.nodeText · ≠ "")) =
      unit.joinTokensFrom last tokens := by
  induction tokens generalizing last with
  | nil => rfl
  | cons token rest ih =>
      by_cases hempty : unit.nodeText token = ""
      · rw [joinTokensFrom_of_empty hempty, List.filter_cons_of_neg (by simpa using hempty), ih]
      · rw [List.filter_cons_of_pos (by simpa using hempty)]
        simp only [joinTokensFrom, hempty, if_false, ih]

theorem joinTokensFrom_cons_eq (last : Option Nat) {token : Node} {rest : List Node}
    (h : ∀ shown ∈ token :: rest, unit.nodeText shown ≠ "") :
    unit.joinTokensFrom last (token :: rest) =
      (if last.any (· < token.start) then " " else "") ++
        joinAtGaps ((token :: rest).map unit.nodeText) (gapsBetween (token :: rest)) := by
  induction rest generalizing last token with
  | nil =>
      have htoken := h token List.mem_cons_self
      simp [joinTokensFrom, htoken, gapsBetween, joinAtGaps]
  | cons next rest ih =>
      have htoken := h token List.mem_cons_self
      have hrest := ih (some token.stop) fun shown hshown =>
        h shown (List.mem_cons_of_mem token hshown)
      rw [joinTokensFrom, if_neg htoken, hrest]
      simp [gapsBetween, joinAtGaps, String.append_assoc]

/-- What is read of joined tokens: their texts, and where there is a gap. -/
theorem joinTokens_eq_joinAtGaps (node : Node) :
    unit.joinTokens node =
      joinAtGaps ((node.leafTokens.map unit.nodeText).filter (· ≠ "")) (unit.gaps node) := by
  have htexts : (node.leafTokens.map unit.nodeText).filter (· ≠ "") =
      (unit.shownLeaves node).map unit.nodeText := by
    rw [List.filter_map]
    rfl
  have hshown : ∀ shown ∈ unit.shownLeaves node, unit.nodeText shown ≠ "" := by
    simp [shownLeaves]
  rw [joinTokens, ← joinTokensFrom_filter, htexts, gaps]
  change unit.joinTokensFrom none (unit.shownLeaves node) = _
  cases hleaves : unit.shownLeaves node with
  | nil => rfl
  | cons token rest =>
      rw [hleaves] at hshown
      rw [joinTokensFrom_cons_eq none hshown]
      simp

/-- Whether the canonical text of a node is put together from its tokens as they come. -/
def IsJoined (node : Node) : Prop :=
  ¬ (node.type == parenthesizedType && node.children.any (·.named)) ∧
    ¬ spacedTypes.contains node.type

theorem IsJoined.canonicalText_eq {node : Node} (h : IsJoined node) :
    unit.canonicalText node =
      joinAtGaps ((node.leafTokens.map unit.nodeText).filter (· ≠ "")) (unit.gaps node) := by
  rw [SourceUnit.canonicalText_eq, if_neg h.1, if_neg h.2, joinTokens_eq_joinAtGaps]

mutual

/-- The nodes whose tokens the canonical text of a node joins, in source order. -/
def joinedNodes (unit : SourceUnit) : Node → List Node
  | ⟨type, start, stop, named, missing, field, children⟩ =>
      if type == parenthesizedType && children.any (·.named) then
        joinedFirstNamed unit children
      else if spacedTypes.contains type then joinedParts unit [] children
      else [⟨type, start, stop, named, missing, field, children⟩]

/-- The joined nodes of the first named one of some nodes. -/
def joinedFirstNamed (unit : SourceUnit) : List Node → List Node
  | [] => []
  | child :: rest =>
      if child.named then joinedNodes unit child else joinedFirstNamed unit rest

/-- The joined nodes of some spaced parts, which come after the parts `done`. -/
def joinedParts (unit : SourceUnit) (done : List String) : List Node → List Node
  | [] => []
  | child :: rest =>
      (if child.type = ";" ∨ child.type = "," ∧ done ≠ [] then []
        else joinedNodes unit child) ++
        joinedParts unit (unit.partsWith done child) rest

end

theorem joinedNodes_eq (unit : SourceUnit) (node : Node) :
    unit.joinedNodes node =
      if node.type == parenthesizedType && node.children.any (·.named) then
        unit.joinedFirstNamed node.children
      else if spacedTypes.contains node.type then unit.joinedParts [] node.children
      else [node] := by
  cases node
  rfl

theorem isJoined_of_mem_joinedFirstNamed {nodes : List Node}
    (h : ∀ child ∈ nodes, ∀ joined ∈ unit.joinedNodes child, IsJoined joined) :
    ∀ joined ∈ unit.joinedFirstNamed nodes, IsJoined joined := by
  induction nodes with
  | nil => nofun
  | cons child rest ih =>
      unfold joinedFirstNamed
      split
      · exact h child List.mem_cons_self
      · exact ih fun node hnode => h node (List.mem_cons_of_mem child hnode)

theorem isJoined_of_mem_joinedParts (done : List String) {nodes : List Node}
    (h : ∀ child ∈ nodes, ∀ joined ∈ unit.joinedNodes child, IsJoined joined) :
    ∀ joined ∈ unit.joinedParts done nodes, IsJoined joined := by
  induction nodes generalizing done with
  | nil => nofun
  | cons child rest ih =>
      intro joined hjoined
      rw [joinedParts, List.mem_append] at hjoined
      rcases hjoined with hchild | hrest
      · split at hchild
        · simp at hchild
        · exact h child List.mem_cons_self joined hchild
      · exact ih (unit.partsWith done child)
          (fun node hnode => h node (List.mem_cons_of_mem child hnode)) joined hrest

/-- The joined nodes of a node are put together from their tokens. -/
theorem isJoined_of_mem_joinedNodes {node : Node} :
    ∀ joined ∈ unit.joinedNodes node, IsJoined joined := by
  induction node using Node.induction with
  | node node ih =>
      rw [joinedNodes_eq]
      by_cases hparens : (node.type == parenthesizedType && node.children.any (·.named)) = true
      · rw [if_pos hparens]
        exact isJoined_of_mem_joinedFirstNamed ih
      rw [if_neg hparens]
      by_cases hspaced : spacedTypes.contains node.type = true
      · rw [if_pos hspaced]
        exact isJoined_of_mem_joinedParts [] ih
      · rw [if_neg hspaced]
        intro joined hjoined
        obtain rfl := List.mem_singleton.mp hjoined
        exact ⟨hparens, hspaced⟩

/-- Whether the canonical text of a node is also that of each node of another text that has
its outline, its token texts and its gaps.  The gaps of what is joined later on come
after those of the node, and are then the same as well. -/
def ToldByLayout (unit unit' : SourceUnit) (node : Node) : Prop :=
  ∀ {node' : Node} {later later' : List (List Bool)}, node.outline = node'.outline →
    node.leafTokens.map unit.nodeText = node'.leafTokens.map unit'.nodeText →
    (unit.joinedNodes node).map unit.gaps ++ later =
      (unit'.joinedNodes node').map unit'.gaps ++ later' →
    unit.canonicalText node = unit'.canonicalText node' ∧ later = later'

/-- The token texts of some nodes are those of the first one and those of the others. -/
theorem map_leafTokensOf_cons_eq {child child' : Node} {rest rest' : List Node}
    (hchild : child.outline = child'.outline)
    (h : (Node.leafTokensOf (child :: rest)).map unit.nodeText =
      (Node.leafTokensOf (child' :: rest')).map unit'.nodeText) :
    child.leafTokens.map unit.nodeText = child'.leafTokens.map unit'.nodeText ∧
      (Node.leafTokensOf rest).map unit.nodeText =
        (Node.leafTokensOf rest').map unit'.nodeText := by
  have hlength : child.leafTokens.length = child'.leafTokens.length := by
    rw [← Node.length_leafTokens_outline, hchild, Node.length_leafTokens_outline]
  rw [Node.leafTokensOf, Node.leafTokensOf, List.map_append, List.map_append] at h
  exact List.append_inj h (by simpa using hlength)

theorem canonicalFirstNamed_of_layout {nodes nodes' : List Node}
    {later later' : List (List Bool)}
    (htold : ∀ child ∈ nodes, unit.ToldByLayout unit' child)
    (hshape : Node.outlineAll nodes = Node.outlineAll nodes')
    (htexts : (Node.leafTokensOf nodes).map unit.nodeText =
      (Node.leafTokensOf nodes').map unit'.nodeText)
    (hgaps : (unit.joinedFirstNamed nodes).map unit.gaps ++ later =
      (unit'.joinedFirstNamed nodes').map unit'.gaps ++ later') :
    unit.canonicalFirstNamed nodes = unit'.canonicalFirstNamed nodes' ∧ later = later' := by
  induction nodes generalizing nodes' with
  | nil =>
      obtain rfl := Node.outlineAll_eq_nil_iff.mp hshape.symm
      exact ⟨rfl, by simpa [joinedFirstNamed] using hgaps⟩
  | cons child rest ih =>
      obtain ⟨child', rest', rfl, hchild, hrest⟩ := Node.exists_of_outlineAll_cons hshape
      obtain ⟨hchildTexts, hrestTexts⟩ := map_leafTokensOf_cons_eq hchild htexts
      unfold joinedFirstNamed at hgaps
      unfold canonicalFirstNamed
      rw [← Node.named_eq_of_outline_eq hchild] at hgaps ⊢
      split at hgaps
      · rename_i hnamed
        rw [if_pos hnamed, if_pos hnamed]
        exact htold child List.mem_cons_self hchild hchildTexts hgaps
      · rename_i hnamed
        rw [if_neg hnamed, if_neg hnamed]
        exact ih (fun node hnode => htold node (List.mem_cons_of_mem child hnode)) hrest
          hrestTexts hgaps

/-- Children with the same layout do the same to the parts that are done. -/
theorem partsWith_of_layout (done : List String) {child child' : Node}
    {later later' : List (List Bool)} (htold : unit.ToldByLayout unit' child)
    (hshape : child.outline = child'.outline)
    (htexts : child.leafTokens.map unit.nodeText = child'.leafTokens.map unit'.nodeText)
    (hgaps : (if child.type = ";" ∨ child.type = "," ∧ done ≠ [] then []
        else unit.joinedNodes child).map unit.gaps ++ later =
      (if child'.type = ";" ∨ child'.type = "," ∧ done ≠ [] then []
        else unit'.joinedNodes child').map unit'.gaps ++ later') :
    unit.partsWith done child = unit'.partsWith done child' ∧ later = later' := by
  rw [← Node.type_eq_of_outline_eq hshape] at hgaps
  rw [partsWith, partsWith, ← Node.type_eq_of_outline_eq hshape]
  by_cases hskip : child.type = ";" ∨ child.type = "," ∧ done ≠ []
  · rw [if_pos hskip, if_pos hskip] at hgaps
    refine ⟨?_, hgaps⟩
    rcases hskip with hsemicolon | hcomma
    · rw [if_pos hsemicolon, if_pos hsemicolon]
    · rw [if_pos hcomma, if_pos hcomma]
  · rw [if_neg hskip, if_neg hskip] at hgaps
    obtain ⟨htext, hlater⟩ := htold hshape htexts hgaps
    rw [htext]
    exact ⟨rfl, hlater⟩

theorem canonicalParts_of_layout (done : List String) {nodes nodes' : List Node}
    {later later' : List (List Bool)}
    (htold : ∀ child ∈ nodes, unit.ToldByLayout unit' child)
    (hshape : Node.outlineAll nodes = Node.outlineAll nodes')
    (htexts : (Node.leafTokensOf nodes).map unit.nodeText =
      (Node.leafTokensOf nodes').map unit'.nodeText)
    (hgaps : (unit.joinedParts done nodes).map unit.gaps ++ later =
      (unit'.joinedParts done nodes').map unit'.gaps ++ later') :
    unit.canonicalParts done nodes = unit'.canonicalParts done nodes' ∧ later = later' := by
  induction nodes generalizing nodes' done with
  | nil =>
      obtain rfl := Node.outlineAll_eq_nil_iff.mp hshape.symm
      exact ⟨rfl, by simpa [joinedParts] using hgaps⟩
  | cons child rest ih =>
      obtain ⟨child', rest', rfl, hchild, hrest⟩ := Node.exists_of_outlineAll_cons hshape
      obtain ⟨hchildTexts, hrestTexts⟩ := map_leafTokensOf_cons_eq hchild htexts
      rw [joinedParts, joinedParts, List.map_append, List.map_append, List.append_assoc,
        List.append_assoc] at hgaps
      obtain ⟨hparts, hlater⟩ := partsWith_of_layout done (htold child List.mem_cons_self)
        hchild hchildTexts hgaps
      rw [canonicalParts_cons, canonicalParts_cons, ← hparts]
      rw [← hparts] at hlater
      exact ih (unit.partsWith done child)
        (fun node hnode => htold node (List.mem_cons_of_mem child hnode)) hrest hrestTexts
        hlater

theorem map_leafTokensOf_children_eq {node node' : Node}
    (hshape : node.outline = node'.outline)
    (htype : node.type ∈ parenthesizedType :: spacedTypes)
    (htexts : node.leafTokens.map unit.nodeText = node'.leafTokens.map unit'.nodeText) :
    (Node.leafTokensOf node.children).map unit.nodeText =
      (Node.leafTokensOf node'.children).map unit'.nodeText := by
  have hchildren := Node.outlineAll_children_eq hshape
  have htype' := Node.type_eq_of_outline_eq hshape ▸ htype
  have hnone : node.children = [] ↔ node'.children = [] := by
    rw [← Node.outlineAll_eq_nil_iff, hchildren, Node.outlineAll_eq_nil_iff]
  by_cases hparts : node.children = []
  · rw [hparts, hnone.mp hparts]
    rfl
  · rwa [Node.leafTokens_of_composite htype hparts,
      Node.leafTokens_of_composite htype' (mt hnone.mpr hparts)] at htexts

theorem toldByLayout (unit unit' : SourceUnit) (node : Node) :
    unit.ToldByLayout unit' node := by
  induction node using Node.induction with
  | node node ih =>
      intro node' later later' hshape htexts hgaps
      have htype := Node.type_eq_of_outline_eq hshape
      have hchildren := Node.outlineAll_children_eq hshape
      have hnamed : node.children.any (·.named) = node'.children.any (·.named) := by
        rw [← Node.any_named_outlineAll, hchildren, Node.any_named_outlineAll]
      rw [joinedNodes_eq, joinedNodes_eq unit' node', ← htype, ← hnamed] at hgaps
      rw [canonicalText_eq, canonicalText_eq unit' node', ← htype, ← hnamed]
      by_cases hparens : (node.type == parenthesizedType && node.children.any (·.named)) = true
      · rw [if_pos hparens, if_pos hparens] at hgaps ⊢
        simp only [Bool.and_eq_true, beq_iff_eq] at hparens
        have hparts := map_leafTokensOf_children_eq hshape (by simp [hparens.1]) htexts
        obtain ⟨htext, hlater⟩ := canonicalFirstNamed_of_layout ih hchildren hparts hgaps
        exact ⟨by rw [htext], hlater⟩
      rw [if_neg hparens, if_neg hparens] at hgaps ⊢
      by_cases hspaced : spacedTypes.contains node.type = true
      · rw [if_pos hspaced, if_pos hspaced] at hgaps ⊢
        have hmem := List.mem_cons_of_mem parenthesizedType (List.contains_iff_mem.mp hspaced)
        have hparts := map_leafTokensOf_children_eq hshape hmem htexts
        obtain ⟨htext, hlater⟩ := canonicalParts_of_layout [] ih hchildren hparts hgaps
        exact ⟨by rw [htext], hlater⟩
      · rw [if_neg hspaced, if_neg hspaced] at hgaps ⊢
        obtain ⟨hjoined, hlater⟩ := List.cons.inj hgaps
        rw [joinTokens_eq_joinAtGaps, joinTokens_eq_joinAtGaps, htexts, hjoined]
        exact ⟨rfl, hlater⟩

/-- **Layout does not show**: two texts have the same canonical text if their trees have the
same shape, their tokens the same texts, and the tokens of each joined node gaps in the
same places.  What a joined node adds to a canonical text are its tokens, with a space at
each gap. -/
theorem canonicalText_eq_of_same_layout (unit unit' : SourceUnit) (node node' : Node)
    (hshape : node.outline = node'.outline)
    (htexts : node.leafTokens.map unit.nodeText = node'.leafTokens.map unit'.nodeText)
    (hgaps : (unit.joinedNodes node).map unit.gaps =
      (unit'.joinedNodes node').map unit'.gaps) :
    unit.canonicalText node = unit'.canonicalText node' ∧
      ∀ joined ∈ unit.joinedNodes node, unit.canonicalText joined =
        joinAtGaps ((joined.leafTokens.map unit.nodeText).filter (· ≠ ""))
          (unit.gaps joined) := by
  have hlater : (unit.joinedNodes node).map unit.gaps ++ [] =
      (unit'.joinedNodes node').map unit'.gaps ++ [] := by rw [hgaps]
  obtain ⟨htext, _⟩ := unit.toldByLayout unit' node hshape htexts hlater
  exact ⟨htext, fun joined hjoined =>
    (isJoined_of_mem_joinedNodes joined hjoined).canonicalText_eq⟩

end SourceUnit
end Syntax

/-- The text of a sum in parentheses, with few blanks, with its tree. -/
def narrowSum : SourceUnit :=
  { path := "Narrow.java"
    text := "(f(/*1*/a)+b)"
    root :=
      ⟨"parenthesized_expression", 0, 13, true, false, none,
        [⟨"(", 0, 1, false, false, none, []⟩,
          ⟨"binary_expression", 1, 12, true, false, none,
            [⟨"method_invocation", 1, 10, true, false, some "left",
              [⟨"identifier", 1, 2, true, false, some "name", []⟩,
                ⟨"argument_list", 2, 10, true, false, some "arguments",
                  [⟨"(", 2, 3, false, false, none, []⟩,
                    ⟨"block_comment", 3, 8, true, false, none, []⟩,
                    ⟨"identifier", 8, 9, true, false, none, []⟩,
                    ⟨")", 9, 10, false, false, none, []⟩]⟩]⟩,
              ⟨"+", 10, 11, false, false, some "operator", []⟩,
              ⟨"identifier", 11, 12, true, false, some "right", []⟩]⟩,
          ⟨")", 12, 13, false, false, none, []⟩]⟩ }

/-- The same sum with more blanks, a line break and another comment. -/
def wideSum : SourceUnit :=
  { path := "Wide.java"
    text := "( f(\n\t/* 2 */ a) + b )"
    root :=
      ⟨"parenthesized_expression", 0, 22, true, false, none,
        [⟨"(", 0, 1, false, false, none, []⟩,
          ⟨"binary_expression", 2, 20, true, false, none,
            [⟨"method_invocation", 2, 16, true, false, some "left",
              [⟨"identifier", 2, 3, true, false, some "name", []⟩,
                ⟨"argument_list", 3, 16, true, false, some "arguments",
                  [⟨"(", 3, 4, false, false, none, []⟩,
                    ⟨"block_comment", 6, 13, true, false, none, []⟩,
                    ⟨"identifier", 14, 15, true, false, none, []⟩,
                    ⟨")", 15, 16, false, false, none, []⟩]⟩]⟩,
              ⟨"+", 17, 18, false, false, some "operator", []⟩,
              ⟨"identifier", 19, 20, true, false, some "right", []⟩]⟩,
          ⟨")", 21, 22, false, false, none, []⟩]⟩ }

theorem canonicalText_wideSum :
    narrowSum.root.outline = wideSum.root.outline ∧
      narrowSum.root.leafTokens.map narrowSum.nodeText =
        wideSum.root.leafTokens.map wideSum.nodeText ∧
      (narrowSum.joinedNodes narrowSum.root).map narrowSum.gaps =
        (wideSum.joinedNodes wideSum.root).map wideSum.gaps ∧
      (wideSum.joinedNodes wideSum.root).map wideSum.gaps = [[false, true, false], [], []] ∧
      narrowSum.canonicalText narrowSum.root = wideSum.canonicalText wideSum.root ∧
      narrowSum.canonicalText narrowSum.root = "(f( a) + b)" := by
  have hshape : narrowSum.root.outline = wideSum.root.outline := by rfl
  have htexts : narrowSum.root.leafTokens.map narrowSum.nodeText =
      wideSum.root.leafTokens.map wideSum.nodeText := by decide +kernel
  have hgaps : (narrowSum.joinedNodes narrowSum.root).map narrowSum.gaps =
      (wideSum.joinedNodes wideSum.root).map wideSum.gaps := by decide +kernel
  refine ⟨hshape, htexts, hgaps, by decide +kernel, ?_, by decide +kernel⟩
  obtain ⟨htext, _⟩ := SourceUnit.canonicalText_eq_of_same_layout narrowSum wideSum
    narrowSum.root wideSum.root hshape htexts hgaps
  exact htext

end JavaSketch
