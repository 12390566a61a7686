import JavaSketch.Proofs.Comments
import Mathlib.Data.List.Basic

/-!
# Comments do not show

Locating the constructs of a unit gives the same result with and without the
comments of its tree, as long as comments are no parts of its nodes.  A walk
without comments lists the other nodes in the same order, so the same candidates
are looked at; and each of them has the same texts and lines.

**Results.**
* `construct_withoutComments`: a candidate makes the same construct.
* `walk_withoutComments`: a walk only leaves out the comments.
* `candidatesOf_withoutComments`: what may be shown only loses its comments.
* `locate_ignores_comments`: nothing that is located changes.
-/

namespace JavaSketch
namespace Syntax

namespace SourceUnit

theorem declaredName_withoutComments (unit : SourceUnit) {node : Node}
    (h : node.PutsCommentsAside) :
    unit.withoutComments.declaredName node.withoutComments = unit.declaredName node := by
  rw [declaredName, Node.childByField_withoutComments h, declaredName]
  cases node.childByField "name" with
  | none => rfl
  | some name => exact unit.nodeText_withoutComments name

end SourceUnit

namespace Node

theorem parameterDeclarator_withoutComments (parameter : Node) :
    parameter.withoutComments.parameterDeclarator =
      parameter.parameterDeclarator.map withoutComments := by
  unfold parameterDeclarator
  rw [type_withoutComments, parameter.childOfType_withoutComments (by decide)]
  split
  · rfl
  · split <;> rfl

theorem parameterDeclarator_of_comment {node : Node} (h : node.isComment) :
    node.parameterDeclarator = none := by
  have hformal : node.type ≠ "formal_parameter" := type_ne_of_comment h (by decide)
  have hspread : node.type ≠ "spread_parameter" := type_ne_of_comment h (by decide)
  simp [parameterDeclarator, hformal, hspread]

theorem parameterDeclarators_withoutComments {method : Node} (h : method.PutsCommentsAside) :
    method.withoutComments.parameterDeclarators =
      method.parameterDeclarators.map withoutComments := by
  unfold parameterDeclarators
  rw [childByField_withoutComments h]
  cases method.childByField "parameters" with
  | none => rfl
  | some parameters =>
      simp only [Option.map_some]
      rw [namedChildren_withoutComments, List.filterMap_map, List.filterMap_filter,
        List.map_filterMap]
      refine List.filterMap_congr fun parameter _ => ?_
      cases hcomment : parameter.isComment with
      | true => simp [parameterDeclarator_of_comment hcomment]
      | false => simpa using parameter.parameterDeclarator_withoutComments

/-- What declares a parameter is part of the method. -/
theorem mem_preorder_of_mem_parameterDeclarators {method declarator : Node}
    (h : declarator ∈ method.parameterDeclarators) : declarator ∈ method.preorder := by
  unfold parameterDeclarators at h
  split at h
  · simp at h
  · rename_i parameters hparameters
    obtain ⟨parameter, hparameter, hdeclarator⟩ := List.mem_filterMap.mp h
    refine mem_preorder_of_mem_children (mem_children_of_childByField hparameters)
      (mem_preorder_of_mem_children (mem_children_of_mem_namedChildren hparameter) ?_)
    unfold parameterDeclarator at hdeclarator
    split at hdeclarator
    · obtain rfl := Option.some.inj hdeclarator
      exact mem_preorder_self parameter
    · split at hdeclarator
      · exact child_mem_preorder (mem_children_of_childOfType hdeclarator)
      · simp at hdeclarator

end Node

namespace SourceUnit

theorem parameterNames_withoutComments (unit : SourceUnit) {method : Node}
    (h : method.CommentsAside) :
    unit.withoutComments.parameterNames method.withoutComments =
      unit.parameterNames method := by
  rw [parameterNames_eq, parameterNames_eq,
    Node.parameterDeclarators_withoutComments h.self, List.map_map]
  refine List.map_congr_left fun declarator hdeclarator => ?_
  have hbelow := h.below (Node.mem_preorder_of_mem_parameterDeclarators hdeclarator)
  exact unit.declaredName_withoutComments hbelow.self

end SourceUnit

namespace Node

theorem modifierTypes_withoutComments (declaration : Node) :
    declaration.withoutComments.modifierTypes =
      declaration.modifierTypes.filter (!commentTypes.contains ·) := by
  unfold modifierTypes
  rw [declaration.childOfType_withoutComments (by decide)]
  cases declaration.childOfType ["modifiers"] with
  | none => rfl
  | some modifiers =>
      simp only [Option.map_some, children_withoutComments, dropComments_eq,
        List.map_map, Function.comp_def, type_withoutComments, List.filter_map, isComment]

/-- The first modifier of some kind is the same with and without comments. -/
theorem find?_modifierTypes_withoutComments (declaration : Node) {p : String → Bool}
    (hp : ∀ type ∈ commentTypes, p type = false) :
    declaration.withoutComments.modifierTypes.find? p =
      declaration.modifierTypes.find? p := by
  rw [modifierTypes_withoutComments, List.find?_filter]
  congr 1
  funext type
  by_cases hcomment : type ∈ commentTypes
  · simp [hcomment, hp type hcomment]
  · simp [hcomment]

theorem any_modifierTypes_withoutComments (declaration : Node) {p : String → Bool}
    (hp : ∀ type ∈ commentTypes, p type = false) :
    declaration.withoutComments.modifierTypes.any p =
      declaration.modifierTypes.any p := by
  rw [← List.isSome_find?, ← List.isSome_find?,
    declaration.find?_modifierTypes_withoutComments hp]

/-- The methods of a declaration are the same with and without comments. -/
theorem memberMethods_withoutComments {declaration : Node}
    (h : declaration.CommentsAside) : declaration.withoutComments.memberMethods =
      declaration.memberMethods.map withoutComments := by
  have hmethods : ∀ part : Node,
      part.withoutComments.namedChildren.filter (·.type == "method_declaration") =
        (part.namedChildren.filter (·.type == "method_declaration")).map
          withoutComments := by
    intro part
    rw [namedChildren_withoutComments, List.filter_map, List.filter_filter]
    refine congrArg _ (List.filter_congr fun child _ => ?_)
    cases hcomment : child.isComment with
    | true =>
        have htype : child.type ≠ "method_declaration" :=
          type_ne_of_comment hcomment (by decide)
        simp [htype]
    | false => simp
  unfold memberMethods
  rw [childByField_withoutComments h.self, type_withoutComments]
  cases hbody : declaration.childByField "body" with
  | none => rfl
  | some body =>
      simp only [Option.map_some]
      split
      · rw [body.childOfType_withoutComments (by decide)]
        cases body.childOfType ["enum_body_declarations"] with
        | none => rfl
        | some part => exact hmethods part
      · exact hmethods body

/-- What is done with a required child is the same with and without comments
once it is the same for the child. -/
theorem bind_requiredChild_withoutComments {α : Type} {child : Option Node}
    {part : String} {f g : Node → Except MissingPart α}
    (h : ∀ node, child = some node → f node.withoutComments = g node) :
    (requiredChild (child.map withoutComments) part >>= f) =
      (requiredChild child part >>= g) := by
  cases child with
  | none => rfl
  | some node =>
      cases hmissing : node.missing with
      | true =>
          simp only [Option.map_some, requiredChild, missing_withoutComments, hmissing]
          rfl
      | false =>
          simp only [Option.map_some, requiredChild, missing_withoutComments, hmissing]
          exact h node rfl

end Node

namespace SourceUnit

theorem methodSignature_withoutComments (unit : SourceUnit) {declaration method : Node}
    (hdeclaration : declaration.CommentsAside) (hmethod : method.CommentsAside) :
    unit.withoutComments.methodSignature declaration.withoutComments
        method.withoutComments = unit.methodSignature declaration method := by
  have haccess := method.find?_modifierTypes_withoutComments
    (p := (accessKeywords.contains ·)) (by decide)
  have hdefault : method.withoutComments.modifierTypes.contains "default" =
      method.modifierTypes.contains "default" := by
    rw [List.contains_eq_any_beq, List.contains_eq_any_beq]
    exact method.any_modifierTypes_withoutComments (by decide)
  unfold methodSignature
  simp only [unit.declaredName_withoutComments hdeclaration.self,
    unit.declaredName_withoutComments hmethod.self,
    unit.parameterNames_withoutComments hmethod, haccess, hdefault,
    Node.childByField_withoutComments hmethod.self, Option.isSome_map, Option.any_map,
    Node.type_withoutComments]

theorem methodHeaderLine_withoutComments (unit : SourceUnit) (method : Node) :
    unit.withoutComments.methodHeaderLine method.withoutComments =
      unit.methodHeaderLine method := by
  have hannotated := method.any_modifierTypes_withoutComments
    (p := (annotationTypes.contains ·)) (by decide)
  simp only [methodHeaderLine, hannotated, startLine_withoutComments,
    endLine_withoutComments]

theorem methodLastLine_withoutComments (unit : SourceUnit) {method : Node}
    (h : method.PutsCommentsAside) :
    unit.withoutComments.methodLastLine method.withoutComments =
      unit.methodLastLine method := by
  simp [methodLastLine, Node.childByField_withoutComments h,
    unit.methodHeaderLine_withoutComments]

theorem forLoop_withoutComments (unit : SourceUnit) {node : Node}
    (h : node.CommentsAside) :
    unit.withoutComments.forLoop node.withoutComments = unit.forLoop node := by
  unfold forLoop
  rw [Node.childByField_withoutComments h.self, Node.childByField_withoutComments h.self]
  refine Node.bind_requiredChild_withoutComments fun initializer hinitializer => ?_
  refine Node.bind_requiredChild_withoutComments fun comparison hcomparison => ?_
  have hinitializer := h.child (Node.mem_children_of_childByField hinitializer)
  have hcomparison := h.child (Node.mem_children_of_childByField hcomparison)
  rw [unit.canonicalText_withoutComments initializer hinitializer,
    unit.canonicalText_withoutComments comparison hcomparison]

theorem forEachLoop_withoutComments (unit : SourceUnit) {node : Node}
    (h : node.CommentsAside) :
    unit.withoutComments.forEachLoop node.withoutComments = unit.forEachLoop node := by
  unfold forEachLoop
  rw [Node.childByField_withoutComments h.self, Node.childByField_withoutComments h.self]
  refine Node.bind_requiredChild_withoutComments fun element _ => ?_
  refine Node.bind_requiredChild_withoutComments fun iterable hiterable => ?_
  have hiterable := h.child (Node.mem_children_of_childByField hiterable)
  rw [unit.nodeText_withoutComments element,
    unit.canonicalText_withoutComments iterable hiterable]

theorem conditional_withoutComments (unit : SourceUnit) {node : Node}
    (h : node.CommentsAside) :
    unit.withoutComments.conditional node.withoutComments = unit.conditional node := by
  unfold conditional
  rw [Node.conditionContent_withoutComments h]
  refine Node.bind_requiredChild_withoutComments fun condition hcondition => ?_
  rw [unit.canonicalText_withoutComments condition (h.conditionContent hcondition)]

theorem switchBlock_withoutComments (unit : SourceUnit) {node : Node}
    (h : node.CommentsAside) :
    unit.withoutComments.switchBlock node.withoutComments = unit.switchBlock node := by
  unfold switchBlock
  rw [Node.conditionContent_withoutComments h]
  refine Node.bind_requiredChild_withoutComments fun selector hselector => ?_
  rw [unit.canonicalText_withoutComments selector (h.conditionContent hselector)]

end SourceUnit
end Syntax

open Syntax (Node Site SourceUnit)

namespace Candidate

/-- A candidate of a tree as a candidate of the tree without comments. -/
def withoutComments : Candidate → Candidate
  | method declaration node => method declaration.withoutComments node.withoutComments
  | forLoop node => forLoop node.withoutComments
  | forEachLoop node => forEachLoop node.withoutComments
  | conditional node => conditional node.withoutComments
  | switchBlock node => switchBlock node.withoutComments

/-- Whether comments are no parts of the nodes of a candidate. -/
def CommentsAside : Candidate → Prop
  | method declaration node => declaration.CommentsAside ∧ node.CommentsAside
  | candidate => candidate.node.CommentsAside

@[simp] theorem node_withoutComments (candidate : Candidate) :
    candidate.withoutComments.node = candidate.node.withoutComments := by
  cases candidate <;> rfl

theorem construct_withoutComments (unit : SourceUnit) {candidate : Candidate}
    (h : candidate.CommentsAside) :
    candidate.withoutComments.construct unit.withoutComments =
      candidate.construct unit := by
  cases candidate with
  | method declaration node =>
      exact congrArg (Except.ok ∘ Construct.method)
        (unit.methodSignature_withoutComments h.1 h.2)
  | forLoop node => exact unit.forLoop_withoutComments h
  | forEachLoop node => exact unit.forEachLoop_withoutComments h
  | conditional node => exact unit.conditional_withoutComments h
  | switchBlock node => exact unit.switchBlock_withoutComments h

theorem firstLine_withoutComments (unit : SourceUnit) (candidate : Candidate) :
    candidate.withoutComments.firstLine unit.withoutComments =
      candidate.firstLine unit := by
  cases candidate with
  | method declaration node => exact unit.methodHeaderLine_withoutComments node
  | _ => exact unit.startLine_withoutComments _

theorem lastLine_withoutComments (unit : SourceUnit) {candidate : Candidate}
    (h : candidate.CommentsAside) :
    candidate.withoutComments.lastLine unit.withoutComments = candidate.lastLine unit := by
  cases candidate with
  | method declaration node => exact unit.methodLastLine_withoutComments h.2.self
  | _ => exact unit.endLine_withoutComments _

/-- A candidate comes to the same with and without comments. -/
theorem locate_withoutComments (unit : SourceUnit) {candidate : Candidate}
    (h : candidate.CommentsAside) :
    candidate.withoutComments.locate unit.withoutComments = candidate.locate unit := by
  simp only [locate, construct_withoutComments unit h, firstLine_withoutComments,
    lastLine_withoutComments unit h, node_withoutComments, Node.type_withoutComments,
    SourceUnit.startLine_withoutComments]

end Candidate

namespace Syntax

namespace Site

/-- A site in the tree without comments. -/
def withoutComments (site : Site) : Site :=
  ⟨site.parent.map Node.withoutComments, site.node.withoutComments⟩

theorem children_withoutComments (site : Site) :
    site.withoutComments.children =
      (site.children.filter (!·.node.isComment)).map withoutComments := by
  simp only [children, withoutComments, Node.children_withoutComments,
    Node.dropComments_eq, List.filter_map, List.map_map, Function.comp_def,
    Option.map_some]

/-- A walk of the sites that are no comments lists what is no comment among the
sites that are walked. -/
theorem walk_withoutComments (stack : List Site)
    (h : ∀ site ∈ stack, site.node.CommentsAside)
    (hleaf : ∀ site ∈ stack, site.node.isComment → site.node.children = []) :
    walk ((stack.filter (!·.node.isComment)).map withoutComments) =
      ((walk stack).filter (!·.node.isComment)).map withoutComments := by
  induction stack using walk.induct with
  | case1 => simp [walk_nil]
  | case2 site rest ih =>
      have hsite := h site List.mem_cons_self
      have hstack := ih
        (by
          intro other hother
          rcases List.mem_append.mp hother with hchild | hrest
          · obtain ⟨child, hmem, rfl⟩ := List.mem_map.mp hchild
            exact hsite.child hmem
          · exact h other (List.mem_cons_of_mem site hrest))
        (by
          intro other hother
          rcases List.mem_append.mp hother with hchild | hrest
          · obtain ⟨child, hmem, rfl⟩ := List.mem_map.mp hchild
            exact hsite.self.comment_leaf child hmem
          · exact hleaf other (List.mem_cons_of_mem site hrest))
      cases hcomment : site.node.isComment with
      | true =>
          have hchildren : site.children = [] := by
            simp [children, hleaf site List.mem_cons_self hcomment]
          rw [hchildren, List.nil_append] at hstack
          simpa [walk_cons, hcomment, hchildren] using hstack
      | false =>
          rw [List.filter_append, List.map_append, ← children_withoutComments] at hstack
          simp [walk_cons, hcomment, hstack]

end Site

namespace Node

/-- Without comments a walk lists the root and what is no comment below it. -/
theorem sites_withoutComments {root : Node} (h : root.CommentsAside) :
    root.withoutComments.sites =
      Site.withoutComments ⟨none, root⟩ ::
        ((Site.walk (Site.children ⟨none, root⟩)).filter (!·.node.isComment)).map
          Site.withoutComments := by
  have hchildren : ∀ site ∈ Site.children ⟨none, root⟩, ∃ child ∈ root.children,
      site.node = child := by
    intro site hsite
    obtain ⟨child, hchild, rfl⟩ := List.mem_map.mp hsite
    exact ⟨child, hchild, rfl⟩
  have hwalk := Site.walk_withoutComments (Site.children ⟨none, root⟩)
    (by
      intro site hsite
      obtain ⟨child, hchild, hnode⟩ := hchildren site hsite
      exact hnode ▸ h.child hchild)
    (by
      intro site hsite
      obtain ⟨child, hchild, hnode⟩ := hchildren site hsite
      exact hnode ▸ h.self.comment_leaf child hchild)
  rw [← hwalk, ← Site.children_withoutComments, sites, Site.walk_cons, List.append_nil]
  rfl

/-- The nodes that are looked for are found without comments too, unless they
are comments. -/
theorem findSites_withoutComments {root : Node} (h : root.CommentsAside)
    {types : List String} (htypes : ∀ type ∈ types, type ∉ commentTypes) :
    root.withoutComments.findSites types =
      (root.findSites types).map Site.withoutComments := by
  have hpart : ∀ site : Site, (types.contains site.withoutComments.node.type &&
      !site.node.isComment) = types.contains site.node.type := by
    intro site
    cases hcomment : site.node.isComment with
    | true =>
        have htype : site.node.type ∉ types := fun htype =>
          type_ne_of_comment hcomment (htypes site.node.type htype) rfl
        simp [Site.withoutComments, htype]
    | false => simp [Site.withoutComments]
  have hbelow : ∀ stack : List Site,
      ((stack.filter (!·.node.isComment)).map Site.withoutComments).filter
          (types.contains ·.node.type) =
        (stack.filter (types.contains ·.node.type)).map Site.withoutComments := by
    intro stack
    rw [List.filter_map, List.filter_filter]
    exact congrArg _ (List.filter_congr fun site _ => hpart site)
  rw [findSites, sites_withoutComments h, findSites, sites, Site.walk_cons,
    List.append_nil, List.filter_cons, List.filter_cons, hbelow]
  cases htype : types.contains root.type <;>
    simp only [Site.withoutComments, type_withoutComments, htype, if_true, if_false,
      Bool.false_eq_true, List.map_cons]

theorem findAll_withoutComments {root : Node} (h : root.CommentsAside)
    {types : List String} (htypes : ∀ type ∈ types, type ∉ commentTypes) :
    root.withoutComments.findAll types = (root.findAll types).map withoutComments := by
  simp only [findAll_eq_map_findSites, findSites_withoutComments h htypes, List.map_map]
  rfl

end Node

namespace SourceUnit

/-- The candidates of a unit are those of the unit without comments. -/
theorem candidatesOf_withoutComments {unit : SourceUnit} (h : unit.root.CommentsAside)
    (kind : ConstructKind) :
    unit.withoutComments.candidatesOf kind =
      (unit.candidatesOf kind).map Candidate.withoutComments := by
  have hnodes : ∀ types : List String, (∀ type ∈ types, type ∉ commentTypes) →
      unit.withoutComments.root.findAll types =
        (unit.root.findAll types).map Node.withoutComments := fun types htypes =>
    Node.findAll_withoutComments h htypes
  cases kind with
  | methodSignature =>
      simp only [candidatesOf, hnodes classLikeTypes (by decide), List.flatMap_map,
        List.map_flatMap, List.map_map]
      refine List.flatMap_congr fun declaration hdeclaration => ?_
      have hbelow := h.below (Node.mem_findAll_iff.mp hdeclaration).1
      rw [Node.memberMethods_withoutComments hbelow, List.map_map]
      rfl
  | forLoop =>
      simp only [candidatesOf, hnodes ["for_statement"] (by decide), List.map_map]
      rfl
  | forEachLoop =>
      simp only [candidatesOf, hnodes ["enhanced_for_statement"] (by decide), List.map_map]
      rfl
  | conditional =>
      simp only [candidatesOf, hnodes ["if_statement"] (by decide), List.map_map]
      rfl
  | switchBlock =>
      have hsites : unit.root.withoutComments.findSites
            ["switch_statement", "switch_expression"] =
          (unit.root.findSites ["switch_statement", "switch_expression"]).map
            Site.withoutComments := Node.findSites_withoutComments h (by decide)
      have hstatement : ∀ site : Site,
          site.withoutComments.isSwitchStatement = site.isSwitchStatement := by
        intro site
        cases hparent : site.parent <;>
          simp [Site.isSwitchStatement, Site.withoutComments, hparent]
      simp only [candidatesOf, withoutComments, hsites, List.filter_map, List.map_map,
        Function.comp_def, hstatement]
      rfl

theorem candidates_withoutComments {unit : SourceUnit} (h : unit.root.CommentsAside) :
    unit.withoutComments.candidates = unit.candidates.map Candidate.withoutComments := by
  rw [candidates, candidates, List.map_flatMap]
  exact List.flatMap_congr fun kind _ => candidatesOf_withoutComments h kind

theorem commentsAside_of_mem_candidates {unit : SourceUnit} (h : unit.root.CommentsAside)
    {candidate : Candidate} (hcandidate : candidate ∈ unit.candidates) :
    candidate.CommentsAside := by
  have hnode := h.below (node_mem_preorder_of_mem_candidates hcandidate).1
  cases candidate with
  | method declaration method =>
      exact ⟨h.below (declaration_mem_preorder_of_mem_candidates hcandidate), hnode⟩
  | _ => exact hnode

/-- **Comments do not show**: where comments are no parts of any node of the
tree, leaving them out changes nothing about what is located, be it the spans,
the reports or the failure. -/
theorem locate_ignores_comments (unit : SourceUnit) (h : unit.root.CommentsAside) :
    unit.withoutComments.locate = unit.locate := by
  have hfindings : unit.withoutComments.findings = unit.findings := by
    rw [findings, candidates_withoutComments h, List.mapM_map]
    exact mapM_congr_of_mem fun candidate hcandidate =>
      candidate.locate_withoutComments unit (commentsAside_of_mem_candidates h hcandidate)
  rw [locate, hfindings, locate]

end SourceUnit
end Syntax

/-- The text of a conditional with a comment in its condition, with its tree. -/
def commentedConditional : SourceUnit :=
  { path := "Sign.java"
    text := "  if(a/*b*/)\x7b\x7d\n"
    root :=
      ⟨"if_statement", 2, 14, true, false, none,
        [⟨"if", 2, 4, false, false, none, []⟩,
          ⟨"parenthesized_expression", 4, 12, true, false, some "condition",
            [⟨"(", 4, 5, false, false, none, []⟩,
              ⟨"identifier", 5, 6, true, false, none, []⟩,
              ⟨"block_comment", 6, 11, true, false, none, []⟩,
              ⟨")", 11, 12, false, false, none, []⟩]⟩,
          ⟨"block", 12, 14, true, false, some "consequence",
            [⟨"\x7b", 12, 13, false, false, none, []⟩,
              ⟨"\x7d", 13, 14, false, false, none, []⟩]⟩]⟩ }

theorem locate_commentedConditional :
    commentedConditional.root.CommentsAside ∧
      commentedConditional.withoutComments.root.size + 1 =
        commentedConditional.root.size ∧
      commentedConditional.withoutComments.locate = commentedConditional.locate ∧
      commentedConditional.locate = .ok ⟨[⟨.conditional "a", 1, 1, Int.le_refl 1⟩], []⟩ := by
  have haside : commentedConditional.root.CommentsAside := by decide +kernel
  refine ⟨haside, by decide +kernel, ?_, by decide +kernel⟩
  exact SourceUnit.locate_ignores_comments commentedConditional haside

end JavaSketch
