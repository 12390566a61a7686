import JavaSketch.Proofs.SharedLines

/-!
# Ranges of lines

The spans of a well-formed tree are nested like the nodes they are made from: of two
nodes one is inside the other or stops before the other starts, and lines are counted in
the order of offsets.  A line can hold the end of one construct and the start of the next,
so the ranges of two constructs apart from each other may have that one line in common.

This holds of constructs of any kinds that are shown on all lines of their nodes.  A method
with an annotation is shown from its second line on, and one without a body on a line only.

**Results.**
* `above_or_apart`: how two places of a tree lie to each other.
* `Shows.lines_eq_of_fillsLines`: the lines of a construct that is shown on all of them.
* `Shows.contains_of_inside`: nested nodes make nested ranges.
* `line_ranges_laminar`: how the lines of two located spans lie to each other.
-/

namespace JavaSketch

open Syntax

namespace Span

/-- Whether a line is one of those from the first to the last of a span. -/
def Covers (span : Span) (line : Int) : Prop :=
  span.first ≤ line ∧ line ≤ span.last

instance (span : Span) (line : Int) : Decidable (span.Covers line) :=
  inferInstanceAs (Decidable (_ ∧ _))

/-- Whether a span covers all lines of another one. -/
def Contains (outer inner : Span) : Prop :=
  ∀ line, inner.Covers line → outer.Covers line

/-- Whether two spans have one line in common at most. -/
def MeetsOnceAtMost (span other : Span) : Prop :=
  ∀ line later, span.Covers line → other.Covers line → span.Covers later →
    other.Covers later → line = later

/-- Whether two spans may belong to a laminar family of ranges of lines. -/
def Laminar (span other : Span) : Prop :=
  span.Contains other ∨ other.Contains span ∨ span.MeetsOnceAtMost other

variable {span other : Span}

theorem contains_iff : span.Contains other ↔
    span.first ≤ other.first ∧ other.last ≤ span.last := by
  constructor
  · intro h
    have hfirst := h other.first ⟨Int.le_refl _, other.first_le_last⟩
    have hlast := h other.last ⟨other.first_le_last, Int.le_refl _⟩
    exact ⟨hfirst.1, hlast.2⟩
  · rintro ⟨hfirst, hlast⟩ line ⟨hlow, hhigh⟩
    exact ⟨Int.le_trans hfirst hlow, Int.le_trans hhigh hlast⟩

/-- Spans one of which ends on or above the line on which the other starts. -/
theorem meetsOnceAtMost_of_last_le_first (h : span.last ≤ other.first) :
    span.MeetsOnceAtMost other := by
  rintro line later ⟨_, hline⟩ ⟨hline', _⟩ ⟨_, hlater⟩ ⟨hlater', _⟩
  omega

theorem Laminar.symm (h : span.Laminar other) : other.Laminar span := by
  rcases h with hcontains | hcontains | hmeets
  · exact Or.inr (Or.inl hcontains)
  · exact Or.inl hcontains
  · exact Or.inr (Or.inr fun line later hline hline' hlater hlater' =>
      hmeets line later hline' hline hlater' hlater)

end Span

namespace Syntax

/-- Of two places one is above the other, or one comes before the other. -/
theorem above_or_apart (place position : Position) :
    place <+: position ∨ position <+: place ∨
      (place < position ∧ ¬ place <+: position) ∨
      (position < place ∧ ¬ position <+: place) := by
  by_cases habove : place <+: position
  · exact Or.inl habove
  by_cases hbelow : position <+: place
  · exact Or.inr (Or.inl hbelow)
  rcases Std.lt_trichotomy place position with hlt | rfl | hlt
  · exact Or.inr (Or.inr (Or.inl ⟨hlt, habove⟩))
  · exact absurd List.prefix_rfl habove
  · exact Or.inr (Or.inr (Or.inr ⟨hlt, hbelow⟩))

namespace Node

/-- Whether a construct of some kind is shown on all lines of its node: a method is if it
has a body and no annotation, and any other construct always is. -/
def FillsLines (kind : ConstructKind) (node : Node) : Prop :=
  kind = .methodSignature → (node.childByField "body").isSome ∧
    node.modifierTypes.any (annotationTypes.contains ·) = false

instance (kind : ConstructKind) (node : Node) : Decidable (node.FillsLines kind) :=
  inferInstanceAs (Decidable (_ → _ ∧ _))

end Node

namespace SourceUnit

variable {unit : SourceUnit} {kind kind' : ConstructKind} {span other : Span}
  {node inner : Node}

/-- A construct that is shown on all lines of its node starts and ends with it. -/
theorem Shows.lines_eq_of_fillsLines (h : unit.Shows kind node span)
    (hfills : node.FillsLines kind) :
    span.first = unit.startLine node ∧ span.last = unit.endLine node := by
  by_cases hkind : kind = .methodSignature
  · obtain ⟨hbody, hplain⟩ := hfills hkind
    obtain ⟨hfirst, hlast⟩ := h.method hkind
    rw [methodHeaderLine, hplain] at hfirst
    rw [methodLastLine, if_pos hbody] at hlast
    exact ⟨hfirst, hlast⟩
  · exact h.block hkind

/-- A span contains those that are made from nodes inside its own. -/
theorem Shows.contains_of_inside (h : unit.Shows kind node span)
    (h' : unit.Shows kind' inner other) (hfills : node.FillsLines kind)
    (hinside : node.start ≤ inner.start ∧ inner.stop ≤ node.stop) : span.Contains other := by
  obtain ⟨hfirst, hlast⟩ := h.lines_eq_of_fillsLines hfills
  have hlow : unit.startLine node ≤ unit.startLine inner := unit.lineAt_mono hinside.1
  have hhigh : unit.endLine inner ≤ unit.endLine node := unit.lineAt_mono hinside.2
  have hfirst' := h'.start_le_first
  have hlast' := h'.last_le_stop
  exact Span.contains_iff.mpr ⟨by omega, by omega⟩

end SourceUnit

end Syntax

/-- **Ranges of lines.**  A unit with a well-formed tree is located, and its spans are made
from the nodes at their places.  Of two spans of any kinds that are shown on all lines of
their nodes, one covers all lines of the other or they have one line in common at most.
More exactly, a span covers the lines of those that are made from nodes below its own if it
is shown on all lines of its node, and of two nodes neither of which is above the other the
earlier one does not end below the line on which the later one starts. -/
theorem line_ranges_laminar {unit : SourceUnit} (h : unit.root.WellFormed) :
    ∃ located, unit.locate = .ok located ∧
      located.spans =
        ConstructKind.order.flatMap (fun kind => (unit.placedSpansOf kind).map Prod.snd) ∧
      ∀ kind kind' place position span other,
        (place, span) ∈ unit.placedSpansOf kind →
        (position, other) ∈ unit.placedSpansOf kind' →
        ∃ node inner,
          unit.root.nodeAt? place = some node ∧ unit.root.nodeAt? position = some inner ∧
          (node.FillsLines kind → inner.FillsLines kind' → span.Laminar other) ∧
          (node.FillsLines kind → place <+: position → span.Contains other) ∧
          (place < position → ¬ place <+: position → span.last ≤ other.first) := by
  have hlines := SourceUnit.linesInOrder_of_wellFormed h
  obtain ⟨located, hlocate⟩ := SourceUnit.exists_locate_of_linesInOrder hlines
  refine ⟨located, hlocate, SourceUnit.spans_eq_flatMap_placedSpansOf hlocate, ?_⟩
  intro kind kind' place position span other hspan hother
  obtain ⟨node, hnode, hshows⟩ := SourceUnit.lines_of_mem_placedSpansOf hlines hspan
  obtain ⟨inner, hinner, hshows'⟩ := SourceUnit.lines_of_mem_placedSpansOf hlines hother
  have hbelow : node.FillsLines kind → place <+: position → span.Contains other :=
    fun hfills habove => hshows.contains_of_inside hshows' hfills (h.inside hnode hinner habove)
  have hbefore : place < position → ¬ place <+: position → span.last ≤ other.first :=
    fun hlt habove => hshows.last_le_first hshows' (h.stop_le_start hnode hinner hlt habove)
  refine ⟨node, inner, hnode, hinner, fun hfills hfills' => ?_, hbelow, hbefore⟩
  rcases above_or_apart place position with
    habove | habove | ⟨hlt, habove⟩ | ⟨hlt, habove⟩
  · exact Or.inl (hbelow hfills habove)
  · have hinside := h.inside hinner hnode habove
    exact Or.inr (Or.inl (hshows'.contains_of_inside hshows hfills' hinside))
  · exact Or.inr (Or.inr (Span.meetsOnceAtMost_of_last_le_first (hbefore hlt habove)))
  · have hafter := hshows'.last_le_first hshows (h.stop_le_start hinner hnode hlt habove)
    have hlaminar : other.Laminar span :=
      Or.inr (Or.inr (Span.meetsOnceAtMost_of_last_le_first hafter))
    exact hlaminar.symm

/-- The tree of a conditional with an empty block on two lines, `if (a) {⏎    }`. -/
def Syntax.Node.emptyConditionalAt (start : Nat) : Node :=
  ⟨"if_statement", start, start + 14, true, false, none,
    [⟨"if", start, start + 2, false, false, none, []⟩,
      ⟨"parenthesized_expression", start + 3, start + 6, true, false, some "condition",
        [⟨"(", start + 3, start + 4, false, false, none, []⟩,
          ⟨"identifier", start + 4, start + 5, true, false, none, []⟩,
          ⟨")", start + 5, start + 6, false, false, none, []⟩]⟩,
      ⟨"block", start + 7, start + 14, true, false, some "consequence",
        [⟨"\x7b", start + 7, start + 8, false, false, none, []⟩,
          ⟨"\x7d", start + 13, start + 14, false, false, none, []⟩]⟩]⟩

/-- The text of a method with two conditionals, the second of which starts on the line on
which the first one ends, with its tree. -/
def adjoiningConditionals : SourceUnit :=
  { path := "A.java"
    text := "class A \x7b void f() \x7b\n    if (a) \x7b\n    \x7d if (b) \x7b\n    \x7d\n  \x7d \x7d\n"
    root :=
      ⟨"program", 0, 60, true, false, none,
        [⟨"class_declaration", 0, 60, true, false, none,
          [⟨"class", 0, 5, false, false, none, []⟩,
            ⟨"identifier", 6, 7, true, false, some "name", []⟩,
            ⟨"class_body", 8, 60, true, false, some "body",
              [⟨"\x7b", 8, 9, false, false, none, []⟩,
                ⟨"method_declaration", 10, 58, true, false, none,
                  [⟨"void_type", 10, 14, true, false, some "type", []⟩,
                    ⟨"identifier", 15, 16, true, false, some "name", []⟩,
                    ⟨"formal_parameters", 16, 18, true, false, some "parameters",
                      [⟨"(", 16, 17, false, false, none, []⟩,
                        ⟨")", 17, 18, false, false, none, []⟩]⟩,
                    ⟨"block", 19, 58, true, false, some "body",
                      [⟨"\x7b", 19, 20, false, false, none, []⟩,
                        .emptyConditionalAt 25,
                        .emptyConditionalAt 40,
                        ⟨"\x7d", 57, 58, false, false, none, []⟩]⟩]⟩,
                ⟨"\x7d", 59, 60, false, false, none, []⟩]⟩]⟩]⟩ }

/-- The method covers the lines of the conditionals, which have line 3 in common only. -/
theorem laminar_adjoiningConditionals :
    adjoiningConditionals.root.WellFormed ∧
      ∃ method first second,
        ([0, 2, 1], method) ∈ adjoiningConditionals.placedSpansOf .methodSignature ∧
        ([0, 2, 1, 3, 1], first) ∈ adjoiningConditionals.placedSpansOf .conditional ∧
        ([0, 2, 1, 3, 2], second) ∈ adjoiningConditionals.placedSpansOf .conditional ∧
        first.Covers 3 ∧ second.Covers 3 ∧
        method.Contains first ∧ first.Laminar second ∧ first.last ≤ second.first := by
  have hwell : adjoiningConditionals.root.WellFormed := by decide +kernel
  have hmethod : ([0, 2, 1], ⟨.method ⟨"A", "f", "", "", true, true, false⟩, 1, 5, by decide⟩) ∈
      adjoiningConditionals.placedSpansOf .methodSignature := by decide +kernel
  have hfirst : ([0, 2, 1, 3, 1], ⟨.conditional "a", 2, 3, by decide⟩) ∈
      adjoiningConditionals.placedSpansOf .conditional := by decide +kernel
  have hsecond : ([0, 2, 1, 3, 2], ⟨.conditional "b", 3, 4, by decide⟩) ∈
      adjoiningConditionals.placedSpansOf .conditional := by decide +kernel
  obtain ⟨_, _, _, hpairs⟩ := line_ranges_laminar hwell
  refine ⟨hwell, _, _, _, hmethod, hfirst, hsecond, by decide, by decide, ?_⟩
  obtain ⟨node, _, hnode, _, _, hcontains, _⟩ := hpairs _ _ _ _ _ _ hmethod hfirst
  obtain ⟨_, _, _, _, hlaminar, _, hbefore⟩ := hpairs _ _ _ _ _ _ hfirst hsecond
  have hfills : node.FillsLines .methodSignature := by
    obtain rfl := Option.some.inj hnode
    decide +kernel
  exact ⟨hcontains hfills (by decide), hlaminar nofun nofun, hbefore (by decide) (by decide)⟩

end JavaSketch
