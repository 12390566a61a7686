import JavaSketch.Proofs.Locating

/-!
# Trees without comments

A comment is no part of the node it stands in, as long as it has no parts and no
role, is not all that the node has, and does not come first in parentheses.
Where that is so throughout a tree, the tree has the same tokens and canonical
texts with and without its comments.

**Definitions.**
* `withoutComments`: a tree, and a unit, without the comments below the root.
* `CommentsAside`: the condition on a tree.

**Results.**
* `childByField_withoutComments`, `childOfType_withoutComments`: no part is lost.
* `leafTokens_withoutComments`: a comment has no tokens.
* `unwrapParens_withoutComments`: a comment is not what parentheses hold.
* `canonicalText_withoutComments`: a comment is a gap.
-/

namespace JavaSketch
namespace Syntax

namespace Node

mutual

/-- A tree without the comments below its root. -/
def withoutComments : Node → Node
  | ⟨type, start, stop, named, missing, field, children⟩ =>
      ⟨type, start, stop, named, missing, field, dropComments children⟩

/-- Some trees without those that are comments and without the comments below
the others. -/
def dropComments : List Node → List Node
  | [] => []
  | child :: rest =>
      if child.isComment then dropComments rest
      else child.withoutComments :: dropComments rest

end

@[simp] theorem type_withoutComments (node : Node) :
    node.withoutComments.type = node.type := by
  cases node
  rfl

@[simp] theorem start_withoutComments (node : Node) :
    node.withoutComments.start = node.start := by
  cases node
  rfl

@[simp] theorem stop_withoutComments (node : Node) :
    node.withoutComments.stop = node.stop := by
  cases node
  rfl

@[simp] theorem named_withoutComments (node : Node) :
    node.withoutComments.named = node.named := by
  cases node
  rfl

@[simp] theorem missing_withoutComments (node : Node) :
    node.withoutComments.missing = node.missing := by
  cases node
  rfl

@[simp] theorem field_withoutComments (node : Node) :
    node.withoutComments.field = node.field := by
  cases node
  rfl

@[simp] theorem isComment_withoutComments (node : Node) :
    node.withoutComments.isComment = node.isComment := by
  simp [isComment]

@[simp] theorem isLiteral_withoutComments (node : Node) :
    node.withoutComments.isLiteral = node.isLiteral := by
  simp [isLiteral]

theorem type_ne_of_comment {node : Node} (hcomment : node.isComment) {type : String}
    (htype : type ∉ commentTypes) : node.type ≠ type := by
  rintro rfl
  exact htype (by simpa [isComment] using hcomment)

theorem children_withoutComments (node : Node) :
    node.withoutComments.children = dropComments node.children := by
  cases node
  rfl

theorem dropComments_eq (nodes : List Node) :
    dropComments nodes = (nodes.filter (!·.isComment)).map withoutComments := by
  induction nodes with
  | nil => rfl
  | cons child rest ih =>
      unfold dropComments
      cases hcomment : child.isComment <;> simp [hcomment, ih]

/-- Whether the comments among the children of a node are no parts of it: they
have no parts and no role, are not all that the node has, and do not come first
in parentheses. -/
structure PutsCommentsAside (node : Node) : Prop where
  comment_leaf : ∀ child ∈ node.children, child.isComment → child.children = []
  comment_field : ∀ child ∈ node.children, child.isComment → child.field = none
  exists_part : node.isComment = false → node.children ≠ [] →
    ∃ child ∈ node.children, child.isComment = false
  firstNamed : node.type = parenthesizedType →
    ∀ child ∈ node.namedChildren.head?, child.isComment = false

instance (node : Node) : Decidable node.PutsCommentsAside :=
  decidable_of_iff (_ ∧ _ ∧ _ ∧ _)
    ⟨fun ⟨hleaf, hfield, hpart, hfirst⟩ => ⟨hleaf, hfield, hpart, hfirst⟩,
      fun ⟨hleaf, hfield, hpart, hfirst⟩ => ⟨hleaf, hfield, hpart, hfirst⟩⟩

/-- Whether comments are no parts of any node of a tree. -/
def CommentsAside (root : Node) : Prop :=
  ∀ node ∈ root.preorder, node.PutsCommentsAside

instance (root : Node) : Decidable root.CommentsAside :=
  inferInstanceAs (Decidable (∀ node ∈ root.preorder, node.PutsCommentsAside))

theorem CommentsAside.self {root : Node} (h : root.CommentsAside) :
    root.PutsCommentsAside :=
  h root (mem_preorder_self root)

theorem CommentsAside.below {root node : Node} (h : root.CommentsAside)
    (hnode : node ∈ root.preorder) : node.CommentsAside := fun inner hinner =>
  h inner (mem_preorder_trans root hnode hinner)

theorem CommentsAside.child {root child : Node} (h : root.CommentsAside)
    (hchild : child ∈ root.children) : child.CommentsAside :=
  h.below (child_mem_preorder hchild)

theorem dropComments_eq_nil_iff {node : Node} (h : node.PutsCommentsAside)
    (hnode : node.isComment = false) :
    dropComments node.children = [] ↔ node.children = [] := by
  constructor
  · intro hdrop
    by_contra hchildren
    obtain ⟨child, hchild, hpart⟩ := h.exists_part hnode hchildren
    have hmem : child ∈ node.children.filter (!·.isComment) :=
      List.mem_filter.mpr ⟨hchild, by simp [hpart]⟩
    rw [dropComments_eq, List.map_eq_nil_iff] at hdrop
    simp [hdrop] at hmem
  · intro hchildren
    rw [hchildren]
    rfl

mutual

/-- The tokens of a tree are the same without comments. -/
theorem leafTokens_withoutComments : (node : Node) → node.CommentsAside →
    node.withoutComments.leafTokens = node.leafTokens.map withoutComments
  | ⟨type, start, stop, named, missing, field, children⟩, h => by
      have hchildren := leafTokensOf_dropComments children fun child hchild =>
        h.child hchild
      have hempty := dropComments_eq_nil_iff h.self
      rw [leafTokens_eq, leafTokens_eq, isComment_withoutComments,
        isLiteral_withoutComments, children_withoutComments]
      split
      · rfl
      · rename_i hcomment
        have hempty := hempty (by simpa using hcomment)
        simp only [Bool.or_eq_true, List.isEmpty_iff, hempty]
        split
        · rfl
        · exact hchildren

theorem leafTokensOf_dropComments : (nodes : List Node) →
    (∀ node ∈ nodes, node.CommentsAside) →
      leafTokensOf (dropComments nodes) = (leafTokensOf nodes).map withoutComments
  | [], _ => rfl
  | child :: rest, h => by
      have hrest := leafTokensOf_dropComments rest fun node hnode =>
        h node (List.mem_cons_of_mem child hnode)
      cases hcomment : child.isComment with
      | true => simp [dropComments, leafTokensOf, hcomment, leafTokens_of_comment, hrest]
      | false =>
          have hchild := leafTokens_withoutComments child (h child List.mem_cons_self)
          simp [dropComments, leafTokensOf, hcomment, hchild, hrest]

end

/-- What is found among some nodes is found without comments too, unless it is
a comment. -/
theorem find?_dropComments {p : Node → Bool}
    (hp : ∀ node, p node.withoutComments = p node) {nodes : List Node}
    (h : ∀ child ∈ nodes.find? p, child.isComment = false) :
    (dropComments nodes).find? p = (nodes.find? p).map withoutComments := by
  induction nodes with
  | nil => rfl
  | cons child rest ih =>
      unfold dropComments
      cases hchild : p child with
      | true =>
          have hpart : child.isComment = false := h child (by simp [hchild])
          simp [hpart, hp, hchild]
      | false =>
          rw [List.find?_cons_of_neg (by simp [hchild])] at h ⊢
          cases hcomment : child.isComment <;> simp [hp, hchild, ih h]

theorem filter_dropComments {p : Node → Bool}
    (hp : ∀ node, p node.withoutComments = p node) (nodes : List Node) :
    (dropComments nodes).filter p =
      ((nodes.filter p).filter (!·.isComment)).map withoutComments := by
  rw [dropComments_eq, List.filter_map, List.filter_filter, List.filter_filter]
  simp only [Function.comp_def, hp, Bool.and_comm]

theorem childByField_withoutComments {node : Node} (h : node.PutsCommentsAside)
    (field : String) : node.withoutComments.childByField field =
      (node.childByField field).map withoutComments := by
  rw [childByField, children_withoutComments]
  refine find?_dropComments (by simp) fun child hchild => ?_
  cases hcomment : child.isComment with
  | false => rfl
  | true =>
      have hfield := List.find?_some hchild
      simp [h.comment_field child (List.mem_of_find?_eq_some hchild) hcomment] at hfield

theorem childOfType_withoutComments (node : Node) {types : List String}
    (htypes : ∀ type ∈ types, type ∉ commentTypes) :
    node.withoutComments.childOfType types =
      (node.childOfType types).map withoutComments := by
  rw [childOfType, children_withoutComments]
  refine find?_dropComments (by simp) fun child hchild => ?_
  have htype : child.type ∈ types := by simpa using List.find?_some hchild
  simpa [isComment] using htypes child.type htype

theorem namedChildren_withoutComments (node : Node) :
    node.withoutComments.namedChildren =
      (node.namedChildren.filter (!·.isComment)).map withoutComments := by
  rw [namedChildren, children_withoutComments]
  exact filter_dropComments (by simp) node.children

/-- Whether the first named node among some nodes is no comment. -/
def FirstNamedIsPart (nodes : List Node) : Prop :=
  ∀ child ∈ nodes.find? (·.named), child.isComment = false

theorem PutsCommentsAside.firstNamedIsPart {node : Node} (h : node.PutsCommentsAside)
    (hparens : node.type = parenthesizedType) : FirstNamedIsPart node.children :=
  fun child hchild =>
    h.firstNamed hparens child (by rwa [namedChildren, List.head?_filter])

theorem FirstNamedIsPart.rest {child : Node} {rest : List Node}
    (h : FirstNamedIsPart (child :: rest)) (hnamed : child.named = false) :
    FirstNamedIsPart rest := by
  rwa [FirstNamedIsPart, List.find?_cons_of_neg (by simp [hnamed])] at h

mutual

/-- Taking off parentheses is the same with and without comments. -/
theorem unwrapParens_withoutComments : (node : Node) → node.CommentsAside →
    node.withoutComments.unwrapParens = node.unwrapParens.withoutComments
  | ⟨type, start, stop, named, missing, field, children⟩, h => by
      rw [unwrapParens_eq, unwrapParens_eq, type_withoutComments,
        children_withoutComments]
      split
      · rename_i hparens
        rw [unwrapFirstNamed_dropComments children (fun child hchild => h.child hchild)
          (h.self.firstNamedIsPart (by simpa using hparens))]
        cases unwrapFirstNamed children <;> rfl
      · rfl

theorem unwrapFirstNamed_dropComments : (nodes : List Node) →
    (∀ node ∈ nodes, node.CommentsAside) → FirstNamedIsPart nodes →
      unwrapFirstNamed (dropComments nodes) =
        (unwrapFirstNamed nodes).map withoutComments
  | [], _, _ => rfl
  | child :: rest, h, hfirst => by
      cases hnamed : child.named with
      | true =>
          have hpart : child.isComment = false := hfirst child (by simp [hnamed])
          have hchild := unwrapParens_withoutComments child (h child List.mem_cons_self)
          simp [dropComments, unwrapFirstNamed, hpart, hnamed, hchild]
      | false =>
          have hrest := unwrapFirstNamed_dropComments rest
            (fun node hnode => h node (List.mem_cons_of_mem child hnode))
            (hfirst.rest hnamed)
          cases hcomment : child.isComment <;>
            simp [dropComments, unwrapFirstNamed, hcomment, hnamed, hrest]

end

mutual

/-- What is in parentheses is part of the tree. -/
theorem unwrapParens_mem_preorder : (node : Node) → node.unwrapParens ∈ node.preorder
  | ⟨type, start, stop, named, missing, field, children⟩ => by
      rw [unwrapParens_eq]
      split
      · cases hfirst : unwrapFirstNamed children with
        | none => exact mem_preorder_self _
        | some content =>
            exact List.mem_cons_of_mem _ (unwrapFirstNamed_mem_preorderAll children hfirst)
      · exact mem_preorder_self _

theorem unwrapFirstNamed_mem_preorderAll : (nodes : List Node) → {content : Node} →
    unwrapFirstNamed nodes = some content → content ∈ preorderAll nodes
  | [], _, h => by simp [unwrapFirstNamed] at h
  | child :: rest, content, h => by
      unfold unwrapFirstNamed at h
      rw [preorderAll, List.mem_append]
      split at h
      · obtain rfl := Option.some.inj h
        exact Or.inl (unwrapParens_mem_preorder child)
      · exact Or.inr (unwrapFirstNamed_mem_preorderAll rest h)

end

theorem CommentsAside.conditionContent {node content : Node} (h : node.CommentsAside)
    (hcontent : node.conditionContent = some content) : content.CommentsAside := by
  obtain ⟨condition, hcondition, rfl⟩ := Option.map_eq_some_iff.mp hcontent
  exact (h.child (mem_children_of_childByField hcondition)).below
    (unwrapParens_mem_preorder condition)

theorem conditionContent_withoutComments {node : Node} (h : node.CommentsAside) :
    node.withoutComments.conditionContent =
      node.conditionContent.map withoutComments := by
  unfold conditionContent
  rw [childByField_withoutComments h.self]
  cases hcondition : node.childByField "condition" with
  | none => rfl
  | some condition =>
      have hbelow := h.child (mem_children_of_childByField hcondition)
      exact congrArg some (unwrapParens_withoutComments condition hbelow)

end Node

namespace SourceUnit

/-- A unit without the comments below the root of its tree. -/
def withoutComments (unit : SourceUnit) : SourceUnit :=
  { unit with root := unit.root.withoutComments }

@[simp] theorem nodeText_withoutComments (unit : SourceUnit) (node : Node) :
    unit.withoutComments.nodeText node.withoutComments = unit.nodeText node := by
  simp [nodeText, textBetween, bytes, withoutComments]

@[simp] theorem startLine_withoutComments (unit : SourceUnit) (node : Node) :
    unit.withoutComments.startLine node.withoutComments = unit.startLine node := by
  simp [startLine, lineAt, bytes, withoutComments]

@[simp] theorem endLine_withoutComments (unit : SourceUnit) (node : Node) :
    unit.withoutComments.endLine node.withoutComments = unit.endLine node := by
  simp [endLine, lineAt, bytes, withoutComments]

theorem joinTokensFrom_withoutComments (unit : SourceUnit) (last : Option Nat)
    (tokens : List Node) :
    unit.withoutComments.joinTokensFrom last (tokens.map Node.withoutComments) =
      unit.joinTokensFrom last tokens := by
  induction tokens generalizing last with
  | nil => rfl
  | cons token rest ih => simp [joinTokensFrom, ih]

theorem joinTokens_withoutComments (unit : SourceUnit) {node : Node}
    (h : node.CommentsAside) :
    unit.withoutComments.joinTokens node.withoutComments = unit.joinTokens node := by
  rw [joinTokens, Node.leafTokens_withoutComments node h,
    joinTokensFrom_withoutComments, joinTokens]

/-- A comment without parts has no canonical text. -/
theorem canonicalText_of_comment (unit : SourceUnit) {node : Node}
    (hcomment : node.isComment) (hleaf : node.children = []) :
    unit.canonicalText node = "" := by
  have htype : ∀ type ∈ commentTypes, spacedTypes.contains type = false := by decide
  have hspaced := htype node.type (by simpa [Node.isComment] using hcomment)
  rw [canonicalText_eq, hleaf, hspaced]
  simp [joinTokens, Node.leafTokens_of_comment hcomment, joinTokensFrom]

theorem canonicalParts_cons_of_comment (unit : SourceUnit) (done : List String)
    {child : Node} (hcomment : child.isComment) (hleaf : child.children = [])
    (rest : List Node) :
    unit.canonicalParts done (child :: rest) = unit.canonicalParts done rest := by
  have hsemicolon : child.type ≠ ";" := Node.type_ne_of_comment hcomment (by decide)
  have hcomma : child.type ≠ "," := Node.type_ne_of_comment hcomment (by decide)
  simp [canonicalParts, hsemicolon, hcomma, unit.canonicalText_of_comment hcomment hleaf]

theorem any_named_dropComments {nodes : List Node} (h : Node.FirstNamedIsPart nodes) :
    (Node.dropComments nodes).any (·.named) = nodes.any (·.named) := by
  rw [← List.isSome_find?, ← List.isSome_find?, Node.find?_dropComments (by simp) h,
    Option.isSome_map]

mutual

/-- The canonical text of a node is the same with and without comments. -/
theorem canonicalText_withoutComments (unit : SourceUnit) : (node : Node) →
    node.CommentsAside →
      unit.withoutComments.canonicalText node.withoutComments = unit.canonicalText node
  | ⟨type, start, stop, named, missing, field, children⟩, h => by
      have hchildren : ∀ child ∈ children, child.CommentsAside := fun child hchild =>
        h.child hchild
      have hparts := canonicalParts_dropComments unit [] children hchildren
        h.self.comment_leaf
      have hjoin := unit.joinTokens_withoutComments h
      rw [canonicalText_eq, canonicalText_eq, Node.type_withoutComments,
        Node.children_withoutComments, hparts, hjoin]
      by_cases hparens : type = parenthesizedType
      · have hfirst := h.self.firstNamedIsPart hparens
        have hinner := canonicalFirstNamed_dropComments unit children hchildren hfirst
        rw [any_named_dropComments hfirst, hinner]
      · simp [hparens]

theorem canonicalFirstNamed_dropComments (unit : SourceUnit) : (nodes : List Node) →
    (∀ node ∈ nodes, node.CommentsAside) → Node.FirstNamedIsPart nodes →
      unit.withoutComments.canonicalFirstNamed (Node.dropComments nodes) =
        unit.canonicalFirstNamed nodes
  | [], _, _ => rfl
  | child :: rest, h, hfirst => by
      cases hnamed : child.named with
      | true =>
          have hpart : child.isComment = false := hfirst child (by simp [hnamed])
          have hchild := canonicalText_withoutComments unit child (h child List.mem_cons_self)
          simp [Node.dropComments, canonicalFirstNamed, hpart, hnamed, hchild]
      | false =>
          have hrest := canonicalFirstNamed_dropComments unit rest
            (fun node hnode => h node (List.mem_cons_of_mem child hnode))
            (hfirst.rest hnamed)
          cases hcomment : child.isComment <;>
            simp [Node.dropComments, canonicalFirstNamed, hcomment, hnamed, hrest]

theorem canonicalParts_dropComments (unit : SourceUnit) (done : List String) :
    (nodes : List Node) → (∀ node ∈ nodes, node.CommentsAside) →
      (∀ node ∈ nodes, node.isComment → node.children = []) →
        unit.withoutComments.canonicalParts done (Node.dropComments nodes) =
          unit.canonicalParts done nodes
  | [], _, _ => rfl
  | child :: rest, h, hleaf => by
      have hrest := fun done => canonicalParts_dropComments unit done rest
        (fun node hnode => h node (List.mem_cons_of_mem child hnode))
        (fun node hnode => hleaf node (List.mem_cons_of_mem child hnode))
      unfold Node.dropComments
      cases hcomment : child.isComment with
      | true =>
          rw [unit.canonicalParts_cons_of_comment done hcomment
            (hleaf child List.mem_cons_self hcomment)]
          exact hrest done
      | false =>
          have hchild := canonicalText_withoutComments unit child (h child List.mem_cons_self)
          simp [canonicalParts, hchild, hrest]

end

end SourceUnit
end Syntax
end JavaSketch
