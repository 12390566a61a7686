import JavaSketch.Proofs.Places
import JavaSketch.Proofs.Rows
import Mathlib.Data.List.Nodup

/-!
# Every construct is found once

Methods are collected for each declaration on its own, so a method could be collected
for two of them: two levels below one, three levels below an enumeration whose body is
the other.  Where no body of an enumeration is a declaration, the position of a method
tells the position of its declaration, and all constructs are at different positions.

**Results.**
* `HasMember.place_eq`: the position of a method tells that of its declaration.
* `nodup_placedFindings`: findings are at different positions.
* `each_construct_found_once`: what becomes of each construct of a tree.
-/

namespace JavaSketch

open Syntax

namespace Syntax.Node

/-- Whether no body of an enumeration is itself a class-like declaration. -/
def PlainEnumBodies (root : Node) : Prop :=
  ∀ node ∈ root.preorder, node.type = "enum_declaration" →
    ∀ body ∈ node.childByField "body", body.type ∉ classLikeTypes

instance (root : Node) : Decidable root.PlainEnumBodies :=
  inferInstanceAs (Decidable (∀ node ∈ _, _ → ∀ body ∈ _, _))

theorem mem_preorder_of_nodeAt? {root node : Node} {position : Position}
    (h : root.nodeAt? position = some node) : node ∈ root.preorder := by
  obtain ⟨site, hsite, rfl⟩ := Option.map_eq_some_iff.mp h
  rw [← map_node_sites, ← map_snd_placedSites]
  exact List.mem_map_of_mem (List.mem_map_of_mem (mem_placedSites_iff.mpr hsite))

theorem IsFirstChild.childByField {node body : Node} {index : Nat}
    (h : node.IsFirstChild isBody body index) : node.childByField "body" = some body := by
  have hfirst := map_fst_firstChild? node isBody
  rw [firstChild?_eq_some_iff.mpr h] at hfirst
  exact hfirst.symm

theorem nodeAt?_child {root node child : Node} {place : Position} {index : Nat}
    (hnode : root.nodeAt? place = some node) (hchild : node.children[index]? = some child) :
    root.nodeAt? (place ++ [index]) = some child := by
  obtain ⟨site, hsite, rfl⟩ := Option.map_eq_some_iff.mp hnode
  rw [nodeAt?, siteAt?_append hsite]
  simp [Site.at?, Site.getElem?_children, hchild]

/-- The body of an enumeration with members is not where a declaration is. -/
theorem PlainEnumBodies.not_nodeAt? {root declaration method other : Node}
    {place : Position} {index inner last : Nat} (h : root.PlainEnumBodies)
    (hmember : root.HasMember place declaration [index, inner, last] method)
    (hother : other.type ∈ classLikeTypes) :
    root.nodeAt? (place ++ [index]) ≠ some other := by
  obtain ⟨hnode, _, hmember⟩ := hmember
  cases hmember with
  | ofEnumBody henum hfirst _ _ _ =>
      intro hat
      obtain rfl := Option.some.inj ((nodeAt?_child hnode hfirst.getElem?).symm.trans hat)
      exact h declaration (mem_preorder_of_nodeAt? hnode) henum _ hfirst.childByField hother

theorem IsMember.below_cases {declaration method : Node} {below : Position}
    (h : declaration.IsMember below method) :
    (∃ index last, below = [index, last]) ∨ ∃ index inner last, below = [index, inner, last] := by
  cases h with
  | ofBody => exact Or.inl ⟨_, _, rfl⟩
  | ofEnumBody => exact Or.inr ⟨_, _, _, rfl⟩

/-- The position of a method tells the position of its declaration. -/
theorem HasMember.place_eq {root declaration declaration' method method' : Node}
    {place place' below below' : Position} (hplain : root.PlainEnumBodies)
    (h : root.HasMember place declaration below method)
    (h' : root.HasMember place' declaration' below' method')
    (heq : place ++ below = place' ++ below') : place = place' := by
  rcases h.isMember.below_cases with ⟨index, last, rfl⟩ | ⟨index, inner, last, rfl⟩ <;>
    rcases h'.isMember.below_cases with ⟨index', last', rfl⟩ | ⟨index', inner', last', rfl⟩
  · exact (List.append_inj' heq rfl).1
  · -- the first declaration would be the body of the second, an enumeration
    have hplace : place = place' ++ [index'] :=
      (List.append_inj' (heq.trans (List.append_cons place' index' _)) rfl).1
    exact absurd (hplace ▸ h.nodeAt?) (hplain.not_nodeAt? h' h.classLike)
  · have hplace : place' = place ++ [index] :=
      (List.append_inj' (heq.symm.trans (List.append_cons place index _)) rfl).1
    exact absurd (hplace ▸ h'.nodeAt?) (hplain.not_nodeAt? h h'.classLike)
  · exact (List.append_inj' heq rfl).1

theorem nodup_flatMap_membersOf {root : Node} (h : root.PlainEnumBodies) :
    ((root.placedDeclarations.flatMap membersOf).map Prod.fst).Nodup := by
  rw [List.map_flatMap, List.nodup_flatMap]
  refine ⟨fun declaration _ => (inDocumentOrder_membersOf declaration).nodup, ?_⟩
  refine (inDocumentOrder_placedDeclarations root).imp_of_mem ?_
  intro first second hfirst hsecond hlt position hposition hposition'
  obtain ⟨place, hplace, rfl⟩ := List.mem_map.mp hposition
  obtain ⟨place', hplace', heq⟩ := List.mem_map.mp hposition'
  obtain ⟨below, method, hmember, rfl⟩ := (mem_membersOf_iff hfirst).mp hplace
  obtain ⟨below', method', hmember', rfl⟩ := (mem_membersOf_iff hsecond).mp hplace'
  rw [hmember.place_eq h hmember' heq.symm] at hlt
  exact List.lt_irrefl _ hlt

theorem nodup_placedCandidatesOf {root : Node} (h : root.PlainEnumBodies)
    (kind : ConstructKind) : ((root.placedCandidatesOf kind).map Prod.fst).Nodup := by
  unfold placedCandidatesOf
  split
  · exact nodup_flatMap_membersOf h
  · exact (((inDocumentOrder_placedSites root).placedFilterMap _).filter _).nodup

end Syntax.Node

namespace Candidate

/-- What a construct may be found as: a span of its lines or, unless it is a method, a
report that a part of it is missing. -/
inductive Yields (unit : SourceUnit) (candidate : Candidate) : Finding → Prop
  | located {span : Span} (construct : candidate.construct unit = .ok span.construct)
      (kind : span.construct.kind = candidate.kind)
      (first : span.first = candidate.firstLine unit)
      (last : span.last = candidate.lastLine unit) : Yields unit candidate (.located span)
  | skipped {cause : MissingPart} (construct : candidate.construct unit = .error cause)
      (notMethod : candidate.kind ≠ .methodSignature) :
      Yields unit candidate
        (.skipped (.unrendered candidate.node.type (unit.startLine candidate.node) cause))

theorem yields_of_locate_eq_ok {unit : SourceUnit} {candidate : Candidate}
    {finding : Finding} (h : candidate.locate unit = .ok finding) :
    candidate.Yields unit finding := by
  cases finding with
  | located span =>
      obtain ⟨hconstruct, hfirst, hlast⟩ := span_of_locate_eq_ok h
      exact .located hconstruct (kind_of_construct_eq_ok hconstruct) hfirst hlast
  | skipped diagnostic =>
      obtain ⟨cause, hconstruct, rfl⟩ := unrendered_of_locate_eq_ok h
      refine .skipped hconstruct fun hkind => ?_
      obtain ⟨span, hspan⟩ := exists_located_of_methodSignature hkind h
      cases hspan

end Candidate

namespace Syntax.SourceUnit

/-- Whether no construct of the tree ends on a line before the one it starts on. -/
def LinesInOrder (unit : SourceUnit) : Prop :=
  ∀ position candidate, unit.root.ConstructAt position candidate →
    unit.startLine candidate.node ≤ unit.endLine candidate.node

theorem mem_candidates_iff {unit : SourceUnit} {candidate : Candidate} :
    candidate ∈ unit.candidates ↔ ∃ position, unit.root.ConstructAt position candidate := by
  rw [candidates, List.mem_flatMap]
  constructor
  · rintro ⟨kind, _, hmem⟩
    rw [← map_snd_placedCandidatesOf] at hmem
    obtain ⟨⟨position, _⟩, hplace, rfl⟩ := List.mem_map.mp hmem
    exact ⟨position, (Node.mem_placedCandidatesOf_iff.mp hplace).2⟩
  · rintro ⟨position, hconstruct⟩
    refine ⟨candidate.kind, ConstructKind.mem_order _, ?_⟩
    rw [← map_snd_placedCandidatesOf]
    exact List.mem_map.mpr
      ⟨_, Node.mem_placedCandidatesOf_iff.mpr ⟨rfl, hconstruct⟩, rfl⟩

theorem linesInOrder_iff {unit : SourceUnit} :
    unit.LinesInOrder ↔ ∀ candidate ∈ unit.candidates,
      unit.startLine candidate.node ≤ unit.endLine candidate.node := by
  constructor
  · intro h candidate hmem
    obtain ⟨position, hconstruct⟩ := mem_candidates_iff.mp hmem
    exact h position candidate hconstruct
  · intro h position candidate hconstruct
    exact h candidate (mem_candidates_iff.mpr ⟨position, hconstruct⟩)

instance (unit : SourceUnit) : Decidable unit.LinesInOrder :=
  decidable_of_iff' _ linesInOrder_iff

theorem exists_locate_of_linesInOrder {unit : SourceUnit} (h : unit.LinesInOrder) :
    ∃ located, unit.locate = .ok located :=
  exists_locate_eq_ok fun candidate hmem =>
    (Candidate.lines_of_startLine_le_endLine (linesInOrder_iff.mp h candidate hmem)).2.1

/-- Findings are at different positions. -/
theorem nodup_placedFindings {unit : SourceUnit} {located : Located}
    (hplain : unit.root.PlainEnumBodies) (h : unit.locate = .ok located) :
    (unit.placedFindings.map Prod.fst).Nodup := by
  -- within a kind the candidates are apart, and a position has one kind only
  have horder : ConstructKind.order.Pairwise (· ≠ ·) := by decide
  rw [placedFindings, List.map_flatMap, List.nodup_flatMap]
  simp only [map_fst_placedFindingsOf h]
  refine ⟨fun kind _ => Node.nodup_placedCandidatesOf hplain kind, horder.imp ?_⟩
  intro kind kind' hne position hposition hposition'
  obtain ⟨⟨_, candidate⟩, hplace, rfl⟩ := List.mem_map.mp hposition
  obtain ⟨⟨_, candidate'⟩, hplace', rfl⟩ := List.mem_map.mp hposition'
  obtain ⟨rfl, hconstruct⟩ := Node.mem_placedCandidatesOf_iff.mp hplace
  obtain ⟨rfl, hconstruct'⟩ := Node.mem_placedCandidatesOf_iff.mp hplace'
  exact hne (hconstruct.kind_eq hconstruct')

end Syntax.SourceUnit

/-- **Every construct is found once.**  A unit whose constructs have their lines in order
is located.  The spans and the reports are those of some outcomes at different positions:
each construct has one, which is a span of its lines or, except for a method, a report
on it, and nothing else in the tree has any. -/
theorem each_construct_found_once {unit : SourceUnit} (hlines : unit.LinesInOrder)
    (hplain : unit.root.PlainEnumBodies) :
    ∃ (located : Located) (outcomes : List (Position × Finding)),
      unit.locate = .ok located ∧
      located.spans = outcomes.filterMap (·.2.span?) ∧
      located.diagnostics = outcomes.filterMap (·.2.diagnostic?) ∧
      (outcomes.map Prod.fst).Nodup ∧
      (∀ position candidate, unit.root.ConstructAt position candidate →
        ∃ finding, (position, finding) ∈ outcomes ∧ candidate.Yields unit finding) ∧
      ∀ outcome ∈ outcomes, ∃ candidate, unit.root.ConstructAt outcome.1 candidate := by
  obtain ⟨located, hlocate⟩ := SourceUnit.exists_locate_of_linesInOrder hlines
  obtain ⟨findings, hfindings, rfl⟩ := SourceUnit.findings_of_locate_eq_ok hlocate
  have hplaced := SourceUnit.map_snd_placedFindings hfindings
  refine ⟨_, unit.placedFindings, hlocate, ?_, ?_,
    SourceUnit.nodup_placedFindings hplain hlocate, ?_, ?_⟩
  · simp only [← hplaced, List.filterMap_map, Function.comp_def]
  · simp only [← hplaced, List.filterMap_map, Function.comp_def]
  · -- a construct is found as its own lines are in order
    intro position candidate hconstruct
    have horder :=
      (Candidate.lines_of_startLine_le_endLine (hlines position candidate hconstruct)).2.1
    obtain ⟨finding, hfinding⟩ := Candidate.exists_locate_eq_ok horder
    exact ⟨finding, SourceUnit.mem_placedFindings_iff.mpr ⟨candidate, hconstruct, hfinding⟩,
      Candidate.yields_of_locate_eq_ok hfinding⟩
  · rintro ⟨position, finding⟩ houtcome
    obtain ⟨candidate, hconstruct, _⟩ := SourceUnit.mem_placedFindings_iff.mp houtcome
    exact ⟨candidate, hconstruct⟩

/-- The text of an enumeration with a method below a constant and a method with a loop
without parts, with its tree. -/
def enumWithLoop : SourceUnit :=
  { path := "A.java"
    text := "enum A \x7b\n  X \x7b void a() \x7b\x7d \x7d;\n  void b() \x7b for (;;) \x7b\x7d \x7d\n\x7d\n"
    root :=
      ⟨"program", 0, 59, true, false, none,
        [⟨"enum_declaration", 0, 58, true, false, none,
          [⟨"enum", 0, 4, false, false, none, []⟩,
            ⟨"identifier", 5, 6, true, false, some "name", []⟩,
            ⟨"enum_body", 7, 58, true, false, some "body",
              [⟨"\x7b", 7, 8, false, false, none, []⟩,
                ⟨"enum_constant", 11, 28, true, false, none,
                  [⟨"identifier", 11, 12, true, false, some "name", []⟩,
                    ⟨"class_body", 13, 28, true, false, some "body",
                      [⟨"\x7b", 13, 14, false, false, none, []⟩,
                        .emptyMethodAt 15,
                        ⟨"\x7d", 27, 28, false, false, none, []⟩]⟩]⟩,
                ⟨"enum_body_declarations", 28, 56, true, false, none,
                  [⟨";", 28, 29, false, false, none, []⟩,
                    ⟨"method_declaration", 32, 56, true, false, none,
                      [⟨"void_type", 32, 36, true, false, some "type", []⟩,
                        ⟨"identifier", 37, 38, true, false, some "name", []⟩,
                        ⟨"formal_parameters", 38, 40, true, false, some "parameters",
                          [⟨"(", 38, 39, false, false, none, []⟩,
                            ⟨")", 39, 40, false, false, none, []⟩]⟩,
                        ⟨"block", 41, 56, true, false, some "body",
                          [⟨"\x7b", 41, 42, false, false, none, []⟩,
                            ⟨"for_statement", 43, 54, true, false, none,
                              [⟨"for", 43, 46, false, false, none, []⟩,
                                ⟨"(", 47, 48, false, false, none, []⟩,
                                ⟨";", 48, 49, false, false, none, []⟩,
                                ⟨";", 49, 50, false, false, none, []⟩,
                                ⟨")", 50, 51, false, false, none, []⟩,
                                ⟨"block", 52, 54, true, false, some "body",
                                  [⟨"\x7b", 52, 53, false, false, none, []⟩,
                                    ⟨"\x7d", 53, 54, false, false, none, []⟩]⟩]⟩,
                            ⟨"\x7d", 55, 56, false, false, none, []⟩]⟩]⟩]⟩,
                ⟨"\x7d", 57, 58, false, false, none, []⟩]⟩]⟩]⟩ }

/-- The loop is passed over, once, as it has no initialiser. -/
theorem skipped_enumWithLoop :
    enumWithLoop.LinesInOrder ∧ enumWithLoop.root.PlainEnumBodies ∧
      ∃ (located : Located) (outcomes : List (Position × Finding)),
        enumWithLoop.locate = .ok located ∧
        located.diagnostics = outcomes.filterMap (·.2.diagnostic?) ∧
        (outcomes.map Prod.fst).Nodup ∧
        ([0, 2, 2, 1, 3, 1], Finding.skipped
          (.unrendered "for_statement" 3 (.absent "for initializer"))) ∈ outcomes := by
  have hlines : enumWithLoop.LinesInOrder := by decide +kernel
  have hplain : enumWithLoop.root.PlainEnumBodies := by decide +kernel
  obtain ⟨located, outcomes, hlocate, _, hdiagnostics, hnodup, hfound, _⟩ :=
    each_construct_found_once hlines hplain
  refine ⟨hlines, hplain, located, outcomes, hlocate, hdiagnostics, hnodup, ?_⟩
  obtain ⟨finding, hfinding, hyields⟩ :=
    hfound [0, 2, 2, 1, 3, 1] _ (.block rfl rfl)
  cases hyields with
  | located hconstruct => cases hconstruct
  | skipped hconstruct =>
      cases hconstruct
      exact hfinding

end JavaSketch
