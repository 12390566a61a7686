import JavaSketch.Proofs.Extents

/-!
# Switches as statements and as values

A switch may stand where a statement is expected or where a value is.  The locator goes
by the symbol of the parent alone.  Most parents hold only one of the two, but an `if`
and the loops hold both, and there only the role of the child tells a branch from an
operand.  So an operand that is itself a switch is taken for a statement.

**Results.**
* `Site.isSwitchStatement_iff`: which places the locator takes for those of statements.
* `SourceUnit.outcomesAt_eq_singleton`: a block has one outcome.
* `SourceUnit.exists_located_iff_of_not_standsAsStatement`: which values are located.
* `switch_outcomes`: what becomes of a switch in every place.
-/

namespace JavaSketch

open Syntax

/-- The symbols of the nodes whose parts are statements. -/
def statementLists : List String :=
  ["program", "block", "constructor_body", "switch_block_statement_group", "switch_rule"]

/-- The symbols of the nodes that have both operands and branches. -/
def controlTypes : List String :=
  ["if_statement", "for_statement", "enhanced_for_statement", "while_statement",
    "do_statement"]

/-- The roles of the branches of a control statement. -/
def branchRoles : List String :=
  ["body", "consequence", "alternative"]

namespace Syntax.Site

/-- Whether a node is a statement by its place: one of several, the one that is labelled,
or a branch of a control statement. -/
inductive StandsAsStatement : Site → Prop
  | listed {parent node : Node} (list : parent.type ∈ statementLists) :
      StandsAsStatement ⟨some parent, node⟩
  | labelled {parent node : Node} (label : parent.type = "labeled_statement") :
      StandsAsStatement ⟨some parent, node⟩
  | branch {parent node : Node} {role : String} (control : parent.type ∈ controlTypes)
      (field : node.field = some role) (isBranch : role ∈ branchRoles) :
      StandsAsStatement ⟨some parent, node⟩

/-- Whether a node is a part of a control statement, but not a branch. -/
inductive IsOperand : Site → Prop
  | mk {parent node : Node} (control : parent.type ∈ controlTypes)
      (notBranch : ∀ role ∈ node.field, role ∉ branchRoles) : IsOperand ⟨some parent, node⟩

theorem IsOperand.not_standsAsStatement {site : Site} (h : site.IsOperand) :
    ¬ site.StandsAsStatement := by
  obtain ⟨hcontrol, hrole⟩ := h
  -- no control statement is a list of statements or a label
  have hlists : ∀ type ∈ controlTypes, type ∉ statementLists ∧ type ≠ "labeled_statement" := by
    decide
  intro hstands
  cases hstands with
  | listed hlist => exact (hlists _ hcontrol).1 hlist
  | labelled hlabel => exact (hlists _ hcontrol).2 hlabel
  | branch _ hfield hbranch => exact hrole _ hfield hbranch

theorem mem_statementParents_iff {type : String} :
    type ∈ statementParents ↔
      type ∈ statementLists ∨ type = "labeled_statement" ∨ type ∈ controlTypes := by
  simp only [statementParents, statementLists, controlTypes, List.mem_cons, List.not_mem_nil,
    or_false]
  tauto

/-- The children of the parents that the locator knows are statements or operands. -/
theorem parent_mem_statementParents_iff {parent node : Node} :
    parent.type ∈ statementParents ↔
      StandsAsStatement ⟨some parent, node⟩ ∨ IsOperand ⟨some parent, node⟩ := by
  rw [mem_statementParents_iff]
  constructor
  · rintro (hlist | hlabel | hcontrol)
    · exact Or.inl (.listed hlist)
    · exact Or.inl (.labelled hlabel)
    · by_cases hbranch : ∃ role ∈ node.field, role ∈ branchRoles
      · obtain ⟨role, hfield, hrole⟩ := hbranch
        exact Or.inl (.branch hcontrol hfield hrole)
      · exact Or.inr (.mk hcontrol fun role hfield hrole => hbranch ⟨role, hfield, hrole⟩)
  · rintro (hstands | ⟨hcontrol, -⟩)
    · cases hstands with
      | listed hlist => exact Or.inl hlist
      | labelled hlabel => exact Or.inr (Or.inl hlabel)
      | branch hcontrol _ _ => exact Or.inr (Or.inr hcontrol)
    · exact Or.inr (Or.inr hcontrol)

/-- A switch counts if it is a statement, by its symbol or by its place, and also if it is
an operand of a control statement. -/
theorem isSwitchStatement_iff {site : Site} :
    site.isSwitchStatement ↔
      site.node.type = "switch_statement" ∨ site.StandsAsStatement ∨ site.IsOperand := by
  rw [isSwitchStatement, Bool.or_eq_true, beq_iff_eq]
  refine or_congr_right ?_
  obtain ⟨parent, node⟩ := site
  cases parent with
  | none => exact ⟨nofun, by rintro (hstands | hoperand) <;> contradiction⟩
  | some parent =>
      rw [Option.any_some, List.contains_iff_mem]
      exact parent_mem_statementParents_iff

/-- Whether the node is a switch. -/
def IsSwitch (site : Site) : Prop :=
  site.node.type = "switch_statement" ∨ site.node.type = "switch_expression"

theorem blockCandidate?_of_isSwitch {site : Site} (h : site.IsSwitch) :
    site.blockCandidate? =
      if site.isSwitchStatement then some (.switchBlock site.node) else none := by
  unfold blockCandidate?
  rcases h with htype | htype <;> simp [htype]

end Syntax.Site

namespace Syntax.Node

/-- Only a switch that counts is a construct. -/
theorem constructAt_iff_of_isSwitch {root : Node} {position : Position} {site : Site}
    (hsite : root.siteAt? position = some site) (hswitch : site.IsSwitch)
    {candidate : Candidate} :
    root.ConstructAt position candidate ↔
      site.isSwitchStatement ∧ candidate = .switchBlock site.node := by
  have hblock := Site.blockCandidate?_of_isSwitch hswitch
  constructor
  · intro hconstruct
    rcases hconstruct.method_or_block with ⟨_, hmethod⟩ | ⟨other, hother, hcandidate⟩
    · -- the node of a method is not a switch
      have hnode := hconstruct.nodeAt?_eq
      rw [nodeAt?, hsite, Option.map_some, Option.some.injEq] at hnode
      rw [← hnode] at hmethod
      rcases hswitch with htype | htype <;> simp [htype] at hmethod
    · obtain rfl := Option.some.inj (hsite.symm.trans hother)
      rw [hblock] at hcandidate
      split at hcandidate
      · rename_i hcounts
        exact ⟨hcounts, (Option.some.inj hcandidate).symm⟩
      · cases hcandidate
  · rintro ⟨hcounts, rfl⟩
    exact .block hsite (by rw [hblock, if_pos hcounts])

end Syntax.Node

/-- Where keys are not repeated, one entry has a key. -/
theorem filter_fst_eq_singleton {α β : Type} [BEq α] [LawfulBEq α]
    {entries : List (α × β)} (hnodup : (entries.map Prod.fst).Nodup) {key : α} {value : β}
    (hmem : (key, value) ∈ entries) :
    entries.filter (·.1 == key) = [(key, value)] := by
  induction entries with
  | nil => simp at hmem
  | cons first rest ih =>
      rw [List.map_cons, List.nodup_cons] at hnodup
      rcases List.mem_cons.mp hmem with rfl | hrest
      · have hnone : rest.filter (·.1 == key) = [] := by
          refine List.filter_eq_nil_iff.mpr fun entry hentry hkey => hnodup.1 ?_
          have hkeys := List.mem_map_of_mem (f := Prod.fst) hentry
          rwa [beq_iff_eq.mp hkey] at hkeys
        rw [List.filter_cons_of_pos (by simp), hnone]
      · have hne : first.1 ≠ key := fun heq =>
          hnodup.1 (heq ▸ List.mem_map_of_mem (f := Prod.fst) hrest)
        rw [List.filter_cons_of_neg (by simpa using hne), ih hnodup.2 hrest]

namespace Syntax.SourceUnit

variable {unit : SourceUnit} {position : Position}

/-- What is found for the node at a position. -/
def outcomesAt (unit : SourceUnit) (position : Position) : List Finding :=
  (unit.placedFindings.filter (·.1 == position)).map Prod.snd

theorem mem_outcomesAt_iff {finding : Finding} :
    finding ∈ unit.outcomesAt position ↔
      ∃ candidate, unit.root.ConstructAt position candidate ∧
        candidate.locate unit = .ok finding := by
  rw [← mem_placedFindings_iff, outcomesAt, List.mem_map]
  constructor
  · rintro ⟨⟨other, _⟩, hmem, rfl⟩
    obtain ⟨hmem, heq⟩ := List.mem_filter.mp hmem
    exact beq_iff_eq.mp heq ▸ hmem
  · intro hmem
    exact ⟨_, List.mem_filter.mpr ⟨hmem, by simp⟩, rfl⟩

theorem inDocumentOrder_placedFindingsOf {kind : ConstructKind}
    (hkind : kind ≠ .methodSignature) : InDocumentOrder (unit.placedFindingsOf kind) := by
  have hsites := Node.inDocumentOrder_placedSites unit.root
  rw [placedFindingsOf, Node.placedCandidatesOf, if_neg hkind]
  exact ((hsites.placedFilterMap _).filter _).placedFilterMap _

/-- A block that is located or reported has no other outcome. -/
theorem outcomesAt_eq_singleton {candidate : Candidate} {finding : Finding}
    (hconstruct : unit.root.ConstructAt position candidate)
    (hblock : candidate.kind ≠ .methodSignature)
    (hlocate : candidate.locate unit = .ok finding) :
    unit.outcomesAt position = [finding] := by
  have hkinds : ∀ kind, (unit.placedFindingsOf kind).filter (·.1 == position) =
      if kind = candidate.kind then [(position, finding)] else [] := by
    intro kind
    split
    · rename_i hkind
      subst hkind
      exact filter_fst_eq_singleton (inDocumentOrder_placedFindingsOf hblock).nodup
        (mem_placedFindingsOf_iff.mpr ⟨candidate, ⟨rfl, hconstruct⟩, hlocate⟩)
    · rename_i hne
      refine List.filter_eq_nil_iff.mpr ?_
      rintro ⟨other, _⟩ hmem heq
      obtain rfl : other = position := beq_iff_eq.mp heq
      obtain ⟨candidate', ⟨rfl, hconstruct'⟩, _⟩ := mem_placedFindingsOf_iff.mp hmem
      exact hne (hconstruct'.kind_eq hconstruct)
  rw [outcomesAt, placedFindings, List.filter_flatMap]
  simp only [hkinds]
  cases candidate.kind <;> rfl

/-- A switch that counts has one outcome. -/
theorem exists_outcomesAt_eq_singleton {site : Site} (hlines : unit.LinesInOrder)
    (hsite : unit.root.siteAt? position = some site) (hswitch : site.IsSwitch)
    (hcounts : site.isSwitchStatement) :
    ∃ finding, unit.outcomesAt position = [finding] ∧
      (Candidate.switchBlock site.node).Yields unit finding := by
  have hconstruct := (Node.constructAt_iff_of_isSwitch hsite hswitch).mpr ⟨hcounts, rfl⟩
  obtain ⟨finding, hfinding⟩ := Candidate.exists_locate_eq_ok
    (Candidate.lines_of_startLine_le_endLine (hlines position _ hconstruct)).2.1
  exact ⟨finding, outcomesAt_eq_singleton hconstruct nofun hfinding,
    Candidate.yields_of_locate_eq_ok hfinding⟩

/-- A switch that is no statement is located if it is an operand with a selector. -/
theorem exists_located_iff_of_not_standsAsStatement {site : Site}
    (hlines : unit.LinesInOrder) (hsite : unit.root.siteAt? position = some site)
    (htype : site.node.type = "switch_expression") (hvalue : ¬ site.StandsAsStatement) :
    (∃ span, .located span ∈ unit.outcomesAt position) ↔
      site.IsOperand ∧ ∃ construct, unit.switchBlock site.node = .ok construct := by
  have hswitch : site.IsSwitch := Or.inr htype
  constructor
  · rintro ⟨span, hspan⟩
    obtain ⟨candidate, hconstruct, hlocated⟩ := mem_outcomesAt_iff.mp hspan
    obtain ⟨hcounts, rfl⟩ := (Node.constructAt_iff_of_isSwitch hsite hswitch).mp hconstruct
    refine ⟨?_, span.construct, (Candidate.span_of_locate_eq_ok hlocated).1⟩
    rcases Site.isSwitchStatement_iff.mp hcounts with hsymbol | hstands | hoperand
    · simp [htype] at hsymbol
    · exact absurd hstands hvalue
    · exact hoperand
  · rintro ⟨hoperand, construct, hselector⟩
    obtain ⟨finding, houtcomes, hyields⟩ := exists_outcomesAt_eq_singleton hlines hsite
      hswitch (Site.isSwitchStatement_iff.mpr (Or.inr (Or.inr hoperand)))
    cases hyields with
    | @located span _ _ _ _ => exact ⟨span, by rw [houtcomes]; exact List.mem_singleton_self _⟩
    | skipped hmissing _ => exact nomatch hselector.symm.trans hmissing

end Syntax.SourceUnit

/-- **What becomes of a switch.**  A unit whose constructs have their lines in order is
located; its spans and reports are the outcomes at the positions of its constructs.  A
switch that is a statement by its symbol or by its place has one outcome, which is a span
of its lines or a report on it.  Any other switch is located exactly if it is an operand
of a control statement and has a selector. -/
theorem switch_outcomes {unit : SourceUnit} (hlines : unit.LinesInOrder) :
    ∃ located, unit.locate = .ok located ∧
      located.spans = unit.placedFindings.filterMap (·.2.span?) ∧
      located.diagnostics = unit.placedFindings.filterMap (·.2.diagnostic?) ∧
      (∀ outcome ∈ unit.placedFindings, ∃ candidate,
        unit.root.ConstructAt outcome.1 candidate ∧ candidate.Yields unit outcome.2) ∧
      (∀ position site, unit.root.siteAt? position = some site → site.IsSwitch →
        site.node.type = "switch_statement" ∨ site.StandsAsStatement →
          ∃ finding, unit.outcomesAt position = [finding] ∧
            (Candidate.switchBlock site.node).Yields unit finding) ∧
      ∀ position site, unit.root.siteAt? position = some site →
        site.node.type = "switch_expression" → ¬ site.StandsAsStatement →
          ((∃ span, .located span ∈ unit.outcomesAt position) ↔
            site.IsOperand ∧ ∃ construct, unit.switchBlock site.node = .ok construct) := by
  obtain ⟨located, hlocate⟩ := SourceUnit.exists_locate_of_linesInOrder hlines
  obtain ⟨findings, hfindings, rfl⟩ := SourceUnit.findings_of_locate_eq_ok hlocate
  have hplaced := SourceUnit.map_snd_placedFindings hfindings
  refine ⟨_, hlocate, ?_, ?_, ?_, ?_, ?_⟩
  · simp only [← hplaced, List.filterMap_map, Function.comp_def]
  · simp only [← hplaced, List.filterMap_map, Function.comp_def]
  · rintro ⟨position, finding⟩ houtcome
    obtain ⟨candidate, hconstruct, hlocated⟩ :=
      SourceUnit.mem_placedFindings_iff.mp houtcome
    exact ⟨candidate, hconstruct, Candidate.yields_of_locate_eq_ok hlocated⟩
  · intro position site hsite hswitch hstatement
    exact SourceUnit.exists_outcomesAt_eq_singleton hlines hsite hswitch
      (Site.isSwitchStatement_iff.mpr (hstatement.imp_right Or.inl))
  · intro position site hsite htype hvalue
    exact SourceUnit.exists_located_iff_of_not_standsAsStatement hlines hsite htype hvalue

/-- The text of a loop over what a switch gives, with its tree. -/
def loopOverSwitch : SourceUnit :=
  { path := "A.java"
    text := "class A \x7b\n  void f() \x7b\n    for (int y : switch (x) \x7b default -> ys; \x7d) \x7b\x7d\n  \x7d\n\x7d\n"
    root :=
      ⟨"program", 0, 80, true, false, none,
        [⟨"class_declaration", 0, 79, true, false, none,
          [⟨"class", 0, 5, false, false, none, []⟩,
            ⟨"identifier", 6, 7, true, false, some "name", []⟩,
            ⟨"class_body", 8, 79, true, false, some "body",
              [⟨"\x7b", 8, 9, false, false, none, []⟩,
                ⟨"method_declaration", 12, 77, true, false, none,
                  [⟨"void_type", 12, 16, true, false, some "type", []⟩,
                    ⟨"identifier", 17, 18, true, false, some "name", []⟩,
                    ⟨"formal_parameters", 18, 20, true, false, some "parameters",
                      [⟨"(", 18, 19, false, false, none, []⟩,
                        ⟨")", 19, 20, false, false, none, []⟩]⟩,
                    ⟨"block", 21, 77, true, false, some "body",
                      [⟨"\x7b", 21, 22, false, false, none, []⟩,
                        ⟨"enhanced_for_statement", 27, 73, true, false, none,
                          [⟨"for", 27, 30, false, false, none, []⟩,
                            ⟨"(", 31, 32, false, false, none, []⟩,
                            ⟨"integral_type", 32, 35, true, false, some "type",
                              [⟨"int", 32, 35, false, false, none, []⟩]⟩,
                            ⟨"identifier", 36, 37, true, false, some "name", []⟩,
                            ⟨":", 38, 39, false, false, none, []⟩,
                            ⟨"switch_expression", 40, 69, true, false, some "value",
                              [⟨"switch", 40, 46, false, false, none, []⟩,
                                ⟨"parenthesized_expression", 47, 50, true, false,
                                  some "condition",
                                  [⟨"(", 47, 48, false, false, none, []⟩,
                                    ⟨"identifier", 48, 49, true, false, none, []⟩,
                                    ⟨")", 49, 50, false, false, none, []⟩]⟩,
                                ⟨"switch_block", 51, 69, true, false, some "body",
                                  [⟨"\x7b", 51, 52, false, false, none, []⟩,
                                    ⟨"switch_rule", 53, 67, true, false, none,
                                      [⟨"switch_label", 53, 60, true, false, none,
                                        [⟨"default", 53, 60, false, false, none, []⟩]⟩,
                                        ⟨"->", 61, 63, false, false, none, []⟩,
                                        ⟨"expression_statement", 64, 67, true, false, none,
                                          [⟨"identifier", 64, 66, true, false, none, []⟩,
                                            ⟨";", 66, 67, false, false, none, []⟩]⟩]⟩,
                                    ⟨"\x7d", 68, 69, false, false, none, []⟩]⟩]⟩,
                            ⟨")", 69, 70, false, false, none, []⟩,
                            ⟨"block", 71, 73, true, false, some "body",
                              [⟨"\x7b", 71, 72, false, false, none, []⟩,
                                ⟨"\x7d", 72, 73, false, false, none, []⟩]⟩]⟩,
                        ⟨"\x7d", 76, 77, false, false, none, []⟩]⟩]⟩,
                ⟨"\x7d", 78, 79, false, false, none, []⟩]⟩]⟩]⟩ }

/-- The switch is the collection of the loop, hence an operand, and is located. -/
theorem located_loopOverSwitch :
    loopOverSwitch.LinesInOrder ∧
      ∃ located, loopOverSwitch.locate = .ok located ∧
        located.spans = loopOverSwitch.placedFindings.filterMap (·.2.span?) ∧
        ∃ span, .located span ∈ loopOverSwitch.outcomesAt [0, 2, 1, 3, 1, 5] := by
  have hlines : loopOverSwitch.LinesInOrder :=
    SourceUnit.linesInOrder_of_wellFormed (by decide +kernel)
  obtain ⟨located, hlocate, hspans, _, _, _, hvalues⟩ := switch_outcomes hlines
  have hoperand : ∀ site ∈ loopOverSwitch.root.siteAt? [0, 2, 1, 3, 1, 5], site.IsOperand := by
    rintro _ ⟨⟩
    exact .mk (by decide) (by decide)
  exact ⟨hlines, located, hlocate, hspans, (hvalues [0, 2, 1, 3, 1, 5] _ rfl rfl
    (hoperand _ rfl).not_standsAsStatement).mpr ⟨hoperand _ rfl, .switchBlock "x", by decide +kernel⟩⟩

/-- A switch in the role of a value becomes a switch block. -/
theorem switchBlock_mem_spans_loopOverSwitch :
    ∃ site located, loopOverSwitch.root.siteAt? [0, 2, 1, 3, 1, 5] = some site ∧
      site.node.type = "switch_expression" ∧ site.node.field = some "value" ∧
      site.parent.map Node.type = some "enhanced_for_statement" ∧
      loopOverSwitch.locate = .ok located ∧
      (loopOverSwitch.outcomesAt [0, 2, 1, 3, 1, 5]).map Finding.span? =
        [some ⟨.switchBlock "x", 3, 3, Int.le_refl 3⟩] ∧
      ⟨.switchBlock "x", 3, 3, Int.le_refl 3⟩ ∈ located.spans := by
  refine ⟨_, ⟨[⟨.method ⟨"A", "f", "", "", true, true, false⟩, 2, 4, by decide⟩,
    ⟨.forEachLoop "y" "switch (x) \x7b default -> ys; \x7d", 3, 3, Int.le_refl 3⟩,
    ⟨.switchBlock "x", 3, 3, Int.le_refl 3⟩], []⟩, rfl, rfl, rfl, rfl, ?_, ?_, ?_⟩
  · decide +kernel
  · decide +kernel
  · decide

end JavaSketch
