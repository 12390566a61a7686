import JavaSketch.Proofs.Places

/-!
# The order of spans

Spans are listed kind by kind.  Blocks of one kind come from one walk over the tree
and follow the document.  Methods are listed declaration by declaration, the outer one
first, so a method below a nested declaration is listed late: they follow the document
exactly if every declaration has its own methods before the nested ones.

**Results.**
* `inDocumentOrder_flatMap_membersOf_iff`: when the members of all declarations are in order.
* `spans_inDocumentOrder_iff`: the groups of spans, and which of them follow the document.
* `not_inDocumentOrder_methodAfterNested`: a method below a nested class.
-/

namespace JavaSketch

open Syntax

namespace Syntax

/-- What holds between all earlier and later things of a list in document order holds
between any two whose positions are in order. -/
theorem InDocumentOrder.rel_of_lt {α : Type} {places : List (Position × α)}
    {r : Position × α → Position × α → Prop} (h : InDocumentOrder places)
    (hr : places.Pairwise r) {first second : Position × α} (hfirst : first ∈ places)
    (hsecond : second ∈ places) (hlt : first.1 < second.1) : r first second := by
  obtain ⟨i, hi, rfl⟩ := List.getElem_of_mem hfirst
  obtain ⟨j, hj, rfl⟩ := List.getElem_of_mem hsecond
  rcases Nat.lt_trichotomy i j with hij | rfl | hji
  · exact List.pairwise_iff_getElem.mp hr i j hi hj hij
  · exact absurd hlt (List.lt_irrefl _)
  · exact absurd (List.pairwise_iff_getElem.mp h j i hj hi hji) (List.lt_asymm hlt)

namespace Node

/-- Whether every class-like declaration has its own methods before the methods of the
class-like declarations inside it. -/
def MembersFirst (root : Node) : Prop :=
  ∀ ⦃outer inner below later : Position⦄ ⦃declaration nested method member : Node⦄,
    root.HasMember outer declaration below method →
      root.HasMember inner nested later member →
        outer <+: inner → outer ≠ inner → outer ++ below < inner ++ later

/-- When the members of all declarations are listed in document order. -/
theorem inDocumentOrder_flatMap_membersOf_iff (root : Node) :
    InDocumentOrder (root.placedDeclarations.flatMap membersOf) ↔ root.MembersFirst := by
  have horder := inDocumentOrder_placedDeclarations root
  rw [InDocumentOrder, List.pairwise_flatMap]
  constructor
  · rintro ⟨_, hbetween⟩ outer inner below later declaration nested method member
      hmethod hmember habove hne
    obtain ⟨site, hsite, rfl⟩ := Option.map_eq_some_iff.mp hmethod.nodeAt?
    obtain ⟨site', hsite', rfl⟩ := Option.map_eq_some_iff.mp hmember.nodeAt?
    have houter := mem_placedDeclarations_iff.mpr ⟨hsite, hmethod.classLike⟩
    have hinner := mem_placedDeclarations_iff.mpr ⟨hsite', hmember.classLike⟩
    exact horder.rel_of_lt hbetween houter hinner (lt_of_above_of_ne habove hne)
      _ ((mem_membersOf_iff houter).mpr ⟨_, _, hmethod, rfl⟩)
      _ ((mem_membersOf_iff hinner).mpr ⟨_, _, hmember, rfl⟩)
  · intro hfirst
    refine ⟨fun declaration _ => inDocumentOrder_membersOf declaration, ?_⟩
    refine horder.imp_of_mem fun {outer inner} houter hinner hlt place hplace place' hplace' => ?_
    obtain ⟨below, method, hmethod, rfl⟩ := (mem_membersOf_iff houter).mp hplace
    obtain ⟨later, member, hmember, rfl⟩ := (mem_membersOf_iff hinner).mp hplace'
    -- apart from nested declarations, what is below the first is before what is below the second
    by_cases habove : outer.1 <+: inner.1
    · exact hfirst hmethod hmember habove fun heq => List.lt_irrefl _ (heq ▸ hlt)
    · exact append_lt_append_of_not_above hlt habove below later

end Node

namespace SourceUnit

/-- The spans of one kind, with the positions of the nodes they are made from. -/
def placedSpansOf (unit : SourceUnit) (kind : ConstructKind) : List (Position × Span) :=
  placedFilterMap Finding.span? (unit.placedFindingsOf kind)

variable {unit : SourceUnit} {kind : ConstructKind} {located : Located}

theorem mem_placedSpansOf_iff {position : Position} {span : Span} :
    (position, span) ∈ unit.placedSpansOf kind ↔
      ∃ candidate, (candidate.kind = kind ∧ unit.root.ConstructAt position candidate) ∧
        candidate.locate unit = .ok (.located span) := by
  rw [placedSpansOf, mem_placedFilterMap_iff]
  constructor
  · rintro ⟨finding, hfinding, hspan⟩
    obtain ⟨candidate, hcandidate, hlocate⟩ := mem_placedFindingsOf_iff.mp hfinding
    cases finding with
    | skipped diagnostic => simp [Finding.span?] at hspan
    | located other =>
        obtain rfl := Option.some.inj hspan
        exact ⟨candidate, hcandidate, hlocate⟩
  · rintro ⟨candidate, hcandidate, hlocate⟩
    exact ⟨_, mem_placedFindingsOf_iff.mpr ⟨candidate, hcandidate, hlocate⟩, rfl⟩

theorem spans_eq_flatMap_placedSpansOf (h : unit.locate = .ok located) :
    located.spans =
      ConstructKind.order.flatMap fun kind => (unit.placedSpansOf kind).map Prod.snd := by
  obtain ⟨findings, hfindings, rfl⟩ := findings_of_locate_eq_ok h
  rw [← map_snd_placedFindings hfindings, placedFindings, List.map_flatMap,
    List.filterMap_flatMap]
  refine congrArg (List.flatMap · _) (funext fun kind => ?_)
  rw [placedSpansOf, map_snd_placedFilterMap]

theorem inDocumentOrder_placedSpansOf (hkind : kind ≠ .methodSignature) :
    InDocumentOrder (unit.placedSpansOf kind) := by
  have hsites := Node.inDocumentOrder_placedSites unit.root
  rw [placedSpansOf, placedFindingsOf, Node.placedCandidatesOf, if_neg hkind]
  exact (((hsites.placedFilterMap _).filter _).placedFilterMap _).placedFilterMap _

/-- No method is passed over. -/
theorem map_fst_placedSpansOf_methods (h : unit.locate = .ok located) :
    (unit.placedSpansOf .methodSignature).map Prod.fst =
      (unit.root.placedDeclarations.flatMap Node.membersOf).map Prod.fst := by
  have hspan : ∀ place ∈ unit.placedFindingsOf .methodSignature,
      ∃ span, place.2.span? = some span := by
    rintro ⟨position, finding⟩ hmem
    obtain ⟨candidate, ⟨hkind, _⟩, hlocate⟩ := mem_placedFindingsOf_iff.mp hmem
    obtain ⟨span, rfl⟩ := Candidate.exists_located_of_methodSignature hkind hlocate
    exact ⟨span, rfl⟩
  rw [placedSpansOf, map_fst_placedFilterMap hspan, map_fst_placedFindingsOf h,
    Node.placedCandidatesOf, if_pos rfl]

end SourceUnit

end Syntax

/-- **The order of the spans.**  The spans are those of the five kinds, one kind after
the other.  Each is made from the node at its position.  The spans of every kind but
methods follow the document; those of methods do exactly if every declaration has its
own methods before the nested ones. -/
theorem spans_inDocumentOrder_iff {unit : SourceUnit} {located : Located}
    (h : unit.locate = .ok located) :
    located.spans =
        ConstructKind.order.flatMap (fun kind => (unit.placedSpansOf kind).map Prod.snd) ∧
      (∀ kind position span, (position, span) ∈ unit.placedSpansOf kind ↔
        ∃ candidate, (candidate.kind = kind ∧ unit.root.ConstructAt position candidate) ∧
          candidate.locate unit = .ok (.located span)) ∧
      (∀ kind ≠ .methodSignature, InDocumentOrder (unit.placedSpansOf kind)) ∧
      (InDocumentOrder (unit.placedSpansOf .methodSignature) ↔ unit.root.MembersFirst) := by
  refine ⟨SourceUnit.spans_eq_flatMap_placedSpansOf h,
    fun kind position span => SourceUnit.mem_placedSpansOf_iff,
    fun kind hkind => SourceUnit.inDocumentOrder_placedSpansOf hkind, ?_⟩
  rw [inDocumentOrder_iff_map_fst, SourceUnit.map_fst_placedSpansOf_methods h,
    ← inDocumentOrder_iff_map_fst]
  exact Node.inDocumentOrder_flatMap_membersOf_iff unit.root

/-- The text of a class with a method below a nested class, with its tree. -/
def methodAfterNested : SourceUnit :=
  { path := "A.java"
    text := "class A \x7b\n  void a() \x7b\x7d\n  class B \x7b\n    void b() \x7b\x7d\n  \x7d\n  void c() \x7b\x7d\n\x7d\n"
    root :=
      ⟨"program", 0, 72, true, false, none,
        [⟨"class_declaration", 0, 71, true, false, none,
          [⟨"class", 0, 5, false, false, none, []⟩,
            ⟨"identifier", 6, 7, true, false, some "name", []⟩,
            ⟨"class_body", 8, 71, true, false, some "body",
              [⟨"\x7b", 8, 9, false, false, none, []⟩,
                .emptyMethodAt 12,
                ⟨"class_declaration", 26, 55, true, false, none,
                  [⟨"class", 26, 31, false, false, none, []⟩,
                    ⟨"identifier", 32, 33, true, false, some "name", []⟩,
                    ⟨"class_body", 34, 55, true, false, some "body",
                      [⟨"\x7b", 34, 35, false, false, none, []⟩,
                        .emptyMethodAt 40,
                        ⟨"\x7d", 54, 55, false, false, none, []⟩]⟩]⟩,
                .emptyMethodAt 58,
                ⟨"\x7d", 70, 71, false, false, none, []⟩]⟩]⟩]⟩ }

theorem locate_methodAfterNested :
    methodAfterNested.locate = .ok
      ⟨[⟨.method ⟨"A", "a", "", "", true, true, false⟩, 2, 2, Int.le_refl 2⟩,
          ⟨.method ⟨"A", "c", "", "", true, true, false⟩, 6, 6, Int.le_refl 6⟩,
          ⟨.method ⟨"B", "b", "", "", true, true, false⟩, 4, 4, Int.le_refl 4⟩], []⟩ := by
  decide +kernel

theorem placedSpansOf_methodAfterNested :
    methodAfterNested.placedSpansOf .methodSignature =
      [([0, 2, 1], ⟨.method ⟨"A", "a", "", "", true, true, false⟩, 2, 2, Int.le_refl 2⟩),
        ([0, 2, 3], ⟨.method ⟨"A", "c", "", "", true, true, false⟩, 6, 6, Int.le_refl 6⟩),
        ([0, 2, 2, 2, 1],
          ⟨.method ⟨"B", "b", "", "", true, true, false⟩, 4, 4, Int.le_refl 4⟩)] := by
  decide +kernel

/-- The class does not have all its methods before those of the class inside it. -/
theorem not_membersFirst_methodAfterNested :
    ∃ located, methodAfterNested.locate = .ok located ∧
      (∀ kind ≠ .methodSignature, InDocumentOrder (methodAfterNested.placedSpansOf kind)) ∧
      ¬ methodAfterNested.root.MembersFirst := by
  obtain ⟨_, _, hblocks, hmethods⟩ := spans_inDocumentOrder_iff locate_methodAfterNested
  rw [placedSpansOf_methodAfterNested] at hmethods
  exact ⟨_, locate_methodAfterNested, hblocks, fun hfirst =>
    absurd (hmethods.mpr hfirst) (by decide)⟩

/-- The method on line 6 is listed before the one on line 4. -/
theorem not_inDocumentOrder_methodAfterNested :
    ∃ located, methodAfterNested.locate = .ok located ∧
      located.spans.map (·.first) = [2, 6, 4] ∧
      ¬ InDocumentOrder (methodAfterNested.placedSpansOf .methodSignature) := by
  refine ⟨_, locate_methodAfterNested, rfl, ?_⟩
  rw [placedSpansOf_methodAfterNested]
  decide

end JavaSketch
