import JavaSketch.Proofs.Locating
import JavaSketch.Proofs.Members
import Mathlib.Tactic.SplitIfs

/-!
# Constructs and their places

A construct is at a position of the tree: a method where a class-like declaration has
it as a member, a block where its symbol stands.  `ConstructAt` says so without
looking at lists; `placedCandidatesOf` lists the same in the order of the locator.

**Results.**
* `ConstructAt.nodeAt?_eq`: the node that a construct is made from.
* `mem_placedCandidatesOf_iff`: the listed candidates are the constructs of a kind.
* `map_snd_placedCandidatesOf`: they are what the locator looks at.
* `map_snd_placedFindings`: what it finds, with the places.
-/

namespace JavaSketch

open Syntax

namespace Syntax.Site

/-- The candidate that a site is by the symbol of its node, if it is one: any but a
method. -/
def blockCandidate? (site : Site) : Option Candidate :=
  if site.node.type = "for_statement" then some (.forLoop site.node)
  else if site.node.type = "if_statement" then some (.conditional site.node)
  else if site.node.type = "enhanced_for_statement" then some (.forEachLoop site.node)
  else if (site.node.type = "switch_statement" ∨ site.node.type = "switch_expression") ∧
      site.isSwitchStatement then some (.switchBlock site.node)
  else none

theorem node_of_blockCandidate? {site : Site} {candidate : Candidate}
    (h : site.blockCandidate? = some candidate) :
    candidate.node = site.node ∧ candidate.kind ≠ .methodSignature ∧
      site.node.type ≠ "method_declaration" := by
  unfold blockCandidate? at h
  split_ifs at h with hfor hif heach hswitch <;> cases h
  · exact ⟨rfl, nofun, by simp [hfor]⟩
  · exact ⟨rfl, nofun, by simp [hif]⟩
  · exact ⟨rfl, nofun, by simp [heach]⟩
  · exact ⟨rfl, nofun, by rcases hswitch.1 with htype | htype <;> simp [htype]⟩

end Syntax.Site

namespace Syntax.Node

/-- The node at a position of a tree. -/
def nodeAt? (root : Node) (position : Position) : Option Node :=
  (root.siteAt? position).map Site.node

/-- Whether a method is a member of a class-like declaration of a tree. -/
structure HasMember (root : Node) (place : Position) (declaration : Node)
    (below : Position) (method : Node) : Prop where
  nodeAt? : root.nodeAt? place = some declaration
  classLike : declaration.type ∈ classLikeTypes
  isMember : declaration.IsMember below method

/-- What may be shown at a position of a tree. -/
inductive ConstructAt (root : Node) : Position → Candidate → Prop
  | method {place below : Position} {declaration method : Node}
      (member : root.HasMember place declaration below method) :
      ConstructAt root (place ++ below) (.method declaration method)
  | block {position : Position} {site : Site} {candidate : Candidate}
      (siteAt? : root.siteAt? position = some site)
      (blockCandidate? : site.blockCandidate? = some candidate) :
      ConstructAt root position candidate

theorem siteAt?_append {root : Node} {place : Position} {site : Site}
    (h : root.siteAt? place = some site) (below : Position) :
    root.siteAt? (place ++ below) = site.at? below := by
  rw [siteAt?, Site.at?_append, ← siteAt?, h, Option.bind_some]

/-- The place of a member below its declaration is the place of the method. -/
theorem IsMember.map_node_at? {declaration method : Node} {below : Position}
    (h : declaration.IsMember below method) (parent : Option Node) :
    (Site.at? ⟨parent, declaration⟩ below).map Site.node = some method := by
  cases h with
  | ofBody _ first hmethod _ => simp [Site.at?, Site.getElem?_children, first.getElem?, hmethod]
  | ofEnumBody _ first firstPart hmethod _ =>
      simp [Site.at?, Site.getElem?_children, first.getElem?, firstPart.getElem?, hmethod]

theorem IsMember.type_eq {declaration method : Node} {below : Position}
    (h : declaration.IsMember below method) : method.type = "method_declaration" := by
  cases h with
  | ofBody _ _ _ isMethod | ofEnumBody _ _ _ _ isMethod =>
      simp only [Node.isMethod, Bool.and_eq_true, beq_iff_eq] at isMethod
      exact isMethod.2

theorem HasMember.nodeAt?_append {root declaration method : Node} {place below : Position}
    (h : root.HasMember place declaration below method) :
    root.nodeAt? (place ++ below) = some method := by
  obtain ⟨site, hsite, rfl⟩ := Option.map_eq_some_iff.mp h.nodeAt?
  rw [Node.nodeAt?, siteAt?_append hsite]
  exact h.isMember.map_node_at? site.parent

/-- A construct is made from the node at its position. -/
theorem ConstructAt.nodeAt?_eq {root : Node} {position : Position} {candidate : Candidate}
    (h : root.ConstructAt position candidate) :
    root.nodeAt? position = some candidate.node := by
  cases h with
  | method member => exact member.nodeAt?_append
  | block hsite hblock =>
      rw [nodeAt?, hsite, (Site.node_of_blockCandidate? hblock).1, Option.map_some]

theorem ConstructAt.method_or_block {root : Node} {position : Position}
    {candidate : Candidate} (h : root.ConstructAt position candidate) :
    (candidate.kind = .methodSignature ∧ candidate.node.type = "method_declaration") ∨
      ∃ site, root.siteAt? position = some site ∧ site.blockCandidate? = some candidate := by
  cases h with
  | method member => exact Or.inl ⟨rfl, member.isMember.type_eq⟩
  | block hsite hblock => exact Or.inr ⟨_, hsite, hblock⟩

/-- Constructs of different kinds are at different positions. -/
theorem ConstructAt.kind_eq {root : Node} {position : Position}
    {candidate other : Candidate} (h : root.ConstructAt position candidate)
    (h' : root.ConstructAt position other) : candidate.kind = other.kind := by
  have hnode : candidate.node = other.node :=
    Option.some.inj (h.nodeAt?_eq.symm.trans h'.nodeAt?_eq)
  rcases h.method_or_block with ⟨hkind, htype⟩ | ⟨site, hsite, hblock⟩ <;>
    rcases h'.method_or_block with ⟨hkind', htype'⟩ | ⟨site', hsite', hblock'⟩
  · rw [hkind, hkind']
  · obtain ⟨hother, _, hne⟩ := Site.node_of_blockCandidate? hblock'
    exact absurd (hother ▸ hnode ▸ htype) hne
  · obtain ⟨hother, _, hne⟩ := Site.node_of_blockCandidate? hblock
    exact absurd (hother ▸ hnode ▸ htype') hne
  · obtain rfl := Option.some.inj (hsite.symm.trans hsite')
    obtain rfl := Option.some.inj (hblock.symm.trans hblock')
    rfl

section Lists

variable {root : Node} {kind : ConstructKind} {position : Position} {candidate : Candidate}

/-- The class-like declarations of a tree with their positions. -/
def placedDeclarations (root : Node) : List (Position × Site) :=
  root.placedSites.filter (classLikeTypes.contains ·.2.node.type)

/-- The methods of a declaration that has a position, with their positions. -/
def membersOf (declaration : Position × Site) : List (Position × Candidate) :=
  declaration.2.node.placedMethods.map fun member =>
    (declaration.1 ++ member.1, .method declaration.2.node member.2)

/-- The nodes that may be shown as constructs of one kind, with their positions. -/
def placedCandidatesOf (root : Node) (kind : ConstructKind) : List (Position × Candidate) :=
  if kind = .methodSignature then root.placedDeclarations.flatMap membersOf
  else (placedFilterMap Site.blockCandidate? root.placedSites).filter (·.2.kind == kind)

theorem mem_placedDeclarations_iff {site : Site} :
    (position, site) ∈ root.placedDeclarations ↔
      root.siteAt? position = some site ∧ site.node.type ∈ classLikeTypes := by
  rw [placedDeclarations, List.mem_filter, mem_placedSites_iff, List.contains_iff_mem]

theorem inDocumentOrder_placedDeclarations (root : Node) :
    InDocumentOrder root.placedDeclarations :=
  (inDocumentOrder_placedSites root).filter _

theorem inDocumentOrder_membersOf (declaration : Position × Site) :
    InDocumentOrder (membersOf declaration) :=
  List.pairwise_map.mpr ((inDocumentOrder_placedMethods declaration.2.node).imp
    List.append_left_lt)

theorem mem_membersOf_iff {declaration : Position × Site}
    (h : declaration ∈ root.placedDeclarations) {place : Position × Candidate} :
    place ∈ membersOf declaration ↔
      ∃ below method, root.HasMember declaration.1 declaration.2.node below method ∧
        place = (declaration.1 ++ below, .method declaration.2.node method) := by
  obtain ⟨hsite, htype⟩ := mem_placedDeclarations_iff.mp h
  rw [membersOf, List.mem_map]
  constructor
  · rintro ⟨⟨below, method⟩, hmember, rfl⟩
    refine ⟨below, method, ⟨?_, htype, mem_placedMethods_iff.mp hmember⟩, rfl⟩
    rw [nodeAt?, hsite, Option.map_some]
  · rintro ⟨below, method, hmember, rfl⟩
    exact ⟨(below, method), mem_placedMethods_iff.mpr hmember.isMember, rfl⟩

theorem mem_flatMap_membersOf_iff :
    (position, candidate) ∈ root.placedDeclarations.flatMap membersOf ↔
      candidate.kind = .methodSignature ∧ root.ConstructAt position candidate := by
  rw [List.mem_flatMap]
  constructor
  · rintro ⟨declaration, hdeclaration, hmember⟩
    obtain ⟨below, method, hmethod, heq⟩ := (mem_membersOf_iff hdeclaration).mp hmember
    obtain ⟨rfl, rfl⟩ := Prod.mk.inj heq
    exact ⟨rfl, .method hmethod⟩
  · rintro ⟨hkind, hconstruct⟩
    cases hconstruct with
    | method hmethod =>
        obtain ⟨site, hsite, rfl⟩ := Option.map_eq_some_iff.mp hmethod.nodeAt?
        have hdeclaration := mem_placedDeclarations_iff.mpr ⟨hsite, hmethod.classLike⟩
        exact ⟨_, hdeclaration, (mem_membersOf_iff hdeclaration).mpr ⟨_, _, hmethod, rfl⟩⟩
    | block hsite hblock => exact absurd hkind (Site.node_of_blockCandidate? hblock).2.1

/-- The listed candidates are the constructs of a kind. -/
theorem mem_placedCandidatesOf_iff :
    (position, candidate) ∈ root.placedCandidatesOf kind ↔
      candidate.kind = kind ∧ root.ConstructAt position candidate := by
  unfold placedCandidatesOf
  split
  · rename_i hkind
    rw [hkind]
    exact mem_flatMap_membersOf_iff
  · rename_i hkind
    rw [List.mem_filter, mem_placedFilterMap_iff, beq_iff_eq, and_comm]
    refine and_congr_right fun hcandidate => ?_
    constructor
    · rintro ⟨site, hsite, hblock⟩
      exact .block (mem_placedSites_iff.mp hsite) hblock
    · intro hconstruct
      rcases hconstruct.method_or_block with ⟨hmethod, _⟩ | ⟨site, hsite, hblock⟩
      · exact absurd (hcandidate.symm.trans hmethod) hkind
      · exact ⟨site, mem_placedSites_iff.mpr hsite, hblock⟩

end Lists

theorem findAll_eq_map_placedDeclarations (root : Node) :
    root.findAll classLikeTypes = root.placedDeclarations.map (·.2.node) := by
  rw [findAll_eq_map_findSites, findSites, ← map_snd_placedSites, List.filter_map, List.map_map,
    placedDeclarations]
  rfl

/-- The tree of a method without parameters that does nothing, `void f() {}`. -/
def emptyMethodAt (start : Nat) : Node :=
  ⟨"method_declaration", start, start + 11, true, false, none,
    [⟨"void_type", start, start + 4, true, false, some "type", []⟩,
      ⟨"identifier", start + 5, start + 6, true, false, some "name", []⟩,
      ⟨"formal_parameters", start + 6, start + 8, true, false, some "parameters",
        [⟨"(", start + 6, start + 7, false, false, none, []⟩,
          ⟨")", start + 7, start + 8, false, false, none, []⟩]⟩,
      ⟨"block", start + 9, start + 11, true, false, some "body",
        [⟨"\x7b", start + 9, start + 10, false, false, none, []⟩,
          ⟨"\x7d", start + 10, start + 11, false, false, none, []⟩]⟩]⟩

end Syntax.Node

theorem ConstructKind.mem_order (kind : ConstructKind) : kind ∈ order := by
  cases kind <;> decide

namespace Syntax.SourceUnit

theorem candidatesOf_eq_filter {unit : SourceUnit} {kind : ConstructKind}
    (h : kind ≠ .methodSignature) :
    unit.candidatesOf kind =
      (unit.root.sites.filterMap Site.blockCandidate?).filter (·.kind == kind) := by
  rw [List.filter_filterMap]
  -- both sides look at each site on its own, so they are compared site by site
  cases kind with
  | methodSignature => exact absurd rfl h
  | switchBlock =>
      simp only [candidatesOf, Node.findSites, List.filter_filter]
      rw [← List.filterMap_eq_map, List.filterMap_filter]
      refine congrArg (List.filterMap · _) (funext fun site => ?_)
      unfold Site.blockCandidate?
      split_ifs <;> simp_all [Option.filter_some, Candidate.kind]
  | forLoop | forEachLoop | conditional =>
      simp only [candidatesOf, Node.findAll_eq_map_findSites, Node.findSites, List.map_map]
      rw [← List.filterMap_eq_map, List.filterMap_filter]
      refine congrArg (List.filterMap · _) (funext fun site => ?_)
      unfold Site.blockCandidate?
      split_ifs <;> simp_all [Option.filter_some, Candidate.kind]

/-- The listed candidates are what the locator looks at. -/
theorem map_snd_placedCandidatesOf (unit : SourceUnit) (kind : ConstructKind) :
    (unit.root.placedCandidatesOf kind).map Prod.snd = unit.candidatesOf kind := by
  unfold Node.placedCandidatesOf
  split
  · rename_i hkind
    rw [hkind, candidatesOf, Node.findAll_eq_map_placedDeclarations, List.map_flatMap,
      List.flatMap_map]
    refine congrArg (List.flatMap · _) (funext fun declaration => ?_)
    rw [Node.membersOf, List.map_map, ← Node.map_snd_placedMethods, List.map_map]
    rfl
  · rename_i hkind
    rw [candidatesOf_eq_filter hkind, ← Node.map_snd_placedSites, ← map_snd_placedFilterMap,
      List.filter_map]
    rfl

/-- What is found for the constructs of one kind, with their positions. -/
def placedFindingsOf (unit : SourceUnit) (kind : ConstructKind) :
    List (Position × Finding) :=
  placedFilterMap (fun candidate => (candidate.locate unit).toOption)
    (unit.root.placedCandidatesOf kind)

/-- What is found for the constructs of all kinds, with their positions. -/
def placedFindings (unit : SourceUnit) : List (Position × Finding) :=
  ConstructKind.order.flatMap unit.placedFindingsOf

theorem mem_placedFindingsOf_iff {unit : SourceUnit} {kind : ConstructKind}
    {position : Position} {finding : Finding} :
    (position, finding) ∈ unit.placedFindingsOf kind ↔
      ∃ candidate, (candidate.kind = kind ∧ unit.root.ConstructAt position candidate) ∧
        candidate.locate unit = .ok finding := by
  rw [placedFindingsOf, mem_placedFilterMap_iff]
  refine exists_congr fun candidate => and_congr Node.mem_placedCandidatesOf_iff ?_
  cases candidate.locate unit <;> simp [Except.toOption]

/-- A construct of any kind is among those of one of the kinds. -/
theorem mem_placedFindings_iff {unit : SourceUnit} {position : Position}
    {finding : Finding} :
    (position, finding) ∈ unit.placedFindings ↔
      ∃ candidate, unit.root.ConstructAt position candidate ∧
        candidate.locate unit = .ok finding := by
  rw [placedFindings, List.mem_flatMap]
  constructor
  · rintro ⟨kind, _, hmem⟩
    obtain ⟨candidate, ⟨_, hconstruct⟩, hlocate⟩ := mem_placedFindingsOf_iff.mp hmem
    exact ⟨candidate, hconstruct, hlocate⟩
  · rintro ⟨candidate, hconstruct, hlocate⟩
    exact ⟨candidate.kind, ConstructKind.mem_order _,
      mem_placedFindingsOf_iff.mpr ⟨candidate, ⟨rfl, hconstruct⟩, hlocate⟩⟩

/-- In a unit that is located every construct has a finding. -/
theorem map_fst_placedFindingsOf {unit : SourceUnit} {located : Located}
    (h : unit.locate = .ok located) (kind : ConstructKind) :
    (unit.placedFindingsOf kind).map Prod.fst =
      (unit.root.placedCandidatesOf kind).map Prod.fst := by
  obtain ⟨findings, hfindings, -⟩ := findings_of_locate_eq_ok h
  refine map_fst_placedFilterMap fun place hplace => ?_
  have hcandidate : place.2 ∈ unit.candidates := by
    rw [candidates, List.mem_flatMap]
    refine ⟨kind, ConstructKind.mem_order kind, ?_⟩
    rw [← map_snd_placedCandidatesOf]
    exact List.mem_map_of_mem hplace
  obtain ⟨finding, hlocate⟩ := exists_eq_ok_of_mapM_eq_ok hfindings hcandidate
  exact ⟨finding, by rw [hlocate]; rfl⟩

/-- What is found is what the locator finds. -/
theorem map_snd_placedFindings {unit : SourceUnit} {findings : List Finding}
    (h : unit.findings = .ok findings) : unit.placedFindings.map Prod.snd = findings := by
  rw [← filterMap_toOption_of_mapM_eq_ok h, candidates, List.filterMap_flatMap, placedFindings,
    List.map_flatMap]
  refine congrArg (List.flatMap · _) (funext fun kind => ?_)
  rw [placedFindingsOf, map_snd_placedFilterMap, map_snd_placedCandidatesOf]

end Syntax.SourceUnit

end JavaSketch
