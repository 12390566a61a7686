import JavaSketch.Proofs.Extents
import JavaSketch.Proofs.SpanOrder

/-!
# Lines that spans of one kind share

Nothing keeps two constructs of one kind from starting or ending on one line.  Which of
them do can be read off the extents of their nodes: constructs apart from each other meet
in a line at most, and of two nested ones the inner one starts or ends on the line of the
outer one if no line ends between the two starts or the two stops.  A method may be shown
on the line after its first, so of nested methods less can be said.

**Results.**
* `lines_of_mem_placedSpansOf`: the lines of a span, from the node it is made from.
* `shared_lines`: when two spans of one kind share a line.
* `conditionals_share_lines`: two conditionals that are no chain and share both lines.
-/

namespace JavaSketch

open Syntax

namespace Candidate

/-- A block is shown on the lines of its node. -/
theorem lines_of_block (unit : SourceUnit) {candidate : Candidate}
    (h : candidate.kind ≠ .methodSignature) :
    candidate.firstLine unit = unit.startLine candidate.node ∧
      candidate.lastLine unit = unit.endLine candidate.node := by
  cases candidate with
  | method declaration node => exact absurd rfl h
  | forLoop node | forEachLoop node | conditional node | switchBlock node => exact ⟨rfl, rfl⟩

/-- A method is shown from its header line on. -/
theorem lines_of_method (unit : SourceUnit) {candidate : Candidate}
    (h : candidate.kind = .methodSignature) :
    candidate.firstLine unit = unit.methodHeaderLine candidate.node ∧
      candidate.lastLine unit = unit.methodLastLine candidate.node := by
  cases candidate with
  | method declaration node => exact ⟨rfl, rfl⟩
  | forLoop node | forEachLoop node | conditional node | switchBlock node => cases h

end Candidate

namespace Syntax.SourceUnit

variable {unit : SourceUnit} {kind kind' : ConstructKind} {place position : Position}
  {span other : Span} {node inner : Node}

/-- The header line of a method is its first or the one after that. -/
theorem methodHeaderLine_le_succ (unit : SourceUnit) (method : Node) :
    unit.methodHeaderLine method ≤ unit.startLine method + 1 := by
  unfold methodHeaderLine
  split <;> omega

/-- The lines that a span of some kind has if it is made from a node. -/
structure Shows (unit : SourceUnit) (kind : ConstructKind) (node : Node) (span : Span) :
    Prop where
  start_le_first : unit.startLine node ≤ span.first
  last_le_stop : span.last ≤ unit.endLine node
  block : kind ≠ .methodSignature →
    span.first = unit.startLine node ∧ span.last = unit.endLine node
  method : kind = .methodSignature →
    span.first = unit.methodHeaderLine node ∧ span.last = unit.methodLastLine node

theorem lines_of_mem_placedSpansOf (hlines : unit.LinesInOrder)
    (h : (place, span) ∈ unit.placedSpansOf kind) :
    ∃ node, unit.root.nodeAt? place = some node ∧ unit.Shows kind node span := by
  obtain ⟨candidate, ⟨rfl, hconstruct⟩, hlocate⟩ := mem_placedSpansOf_iff.mp h
  obtain ⟨_, hfirst, hlast⟩ := Candidate.span_of_locate_eq_ok hlocate
  obtain ⟨hlow, _, hhigh⟩ :=
    Candidate.lines_of_startLine_le_endLine (hlines place candidate hconstruct)
  refine ⟨candidate.node, hconstruct.nodeAt?_eq, ?_, ?_, fun hkind => ?_, fun hkind => ?_⟩
  · omega
  · omega
  · obtain ⟨hfirst', hlast'⟩ := Candidate.lines_of_block unit hkind
    rw [hfirst, hlast, hfirst', hlast']
    exact ⟨rfl, rfl⟩
  · obtain ⟨hfirst', hlast'⟩ := Candidate.lines_of_method unit hkind
    rw [hfirst, hlast, hfirst', hlast']
    exact ⟨rfl, rfl⟩

/-- Spans of one kind that are made from one node have the same lines. -/
theorem Shows.lines_eq (h : unit.Shows kind node span) (h' : unit.Shows kind node other) :
    span.first = other.first ∧ span.last = other.last := by
  by_cases hkind : kind = .methodSignature
  · obtain ⟨hfirst, hlast⟩ := h.method hkind
    obtain ⟨hfirst', hlast'⟩ := h'.method hkind
    exact ⟨hfirst.trans hfirst'.symm, hlast.trans hlast'.symm⟩
  · obtain ⟨hfirst, hlast⟩ := h.block hkind
    obtain ⟨hfirst', hlast'⟩ := h'.block hkind
    exact ⟨hfirst.trans hfirst'.symm, hlast.trans hlast'.symm⟩

/-- Spans of nodes one of which stops before the other starts meet in a line at most. -/
theorem Shows.last_le_first (h : unit.Shows kind node span) (h' : unit.Shows kind' inner other)
    (hstop : node.stop ≤ inner.start) : span.last ≤ other.first := by
  have hlow := h'.start_le_first
  have hhigh := h.last_le_stop
  have hline : unit.endLine node ≤ unit.startLine inner := unit.lineAt_mono hstop
  omega

/-- When a block starts and ends on the lines of a block that it is inside of. -/
theorem Shows.block_lines_eq_iff (h : unit.Shows kind node span)
    (h' : unit.Shows kind inner other) (hkind : kind ≠ .methodSignature)
    (hstart : node.start ≤ inner.start) (hstop : inner.stop ≤ node.stop) :
    (span.first = other.first ↔ unit.OnOneLine node.start inner.start) ∧
      (span.last = other.last ↔ unit.OnOneLine inner.stop node.stop) := by
  obtain ⟨hfirst, hlast⟩ := h.block hkind
  obtain ⟨hfirst', hlast'⟩ := h'.block hkind
  rw [← lineAt_eq_lineAt_iff hstart, ← lineAt_eq_lineAt_iff hstop, hfirst, hlast, hfirst',
    hlast', Int.ofNat_inj, Int.ofNat_inj]
  exact ⟨Iff.rfl, eq_comm⟩

/-- When a method starts and ends on the lines of a method that it is inside of. -/
theorem Shows.method_lines_eq (h : unit.Shows kind node span)
    (h' : unit.Shows kind inner other) (hkind : kind = .methodSignature)
    (hstop : inner.stop ≤ node.stop) :
    (span.first = other.first → unit.startLine inner ≤ unit.startLine node + 1) ∧
      ((node.childByField "body").isSome → (span.last = other.last ↔
        other.last = unit.endLine inner ∧ unit.OnOneLine inner.stop node.stop)) := by
  obtain ⟨hfirst, hlast⟩ := h.method hkind
  have hlow := h'.start_le_first
  have hhigh := h'.last_le_stop
  constructor
  · intro heq
    have hheader := unit.methodHeaderLine_le_succ node
    omega
  · intro hbody
    rw [methodLastLine, if_pos hbody] at hlast
    have hline : unit.endLine inner ≤ unit.endLine node := unit.lineAt_mono hstop
    rw [← lineAt_eq_lineAt_iff hstop]
    unfold endLine at hline hhigh hlast ⊢
    constructor
    · intro heq
      omega
    · rintro ⟨hinner, hsame⟩
      omega

end Syntax.SourceUnit

/-- **Lines that spans share.**  A unit with a well-formed tree is located, and its spans
are made from the nodes at their places.  Let two of them be of one kind.  If neither node
is above the other, the earlier span does not end below the line the later one starts on.
If one is, blocks share their first line exactly if no line ends between the starts of the
nodes, and their last line exactly if none ends between the stops.  Nested methods share
the first line only if the inner one starts at most a line further down, and the last line,
where the outer one has a body, exactly if the inner one is shown to its end and no line
ends between the stops. -/
theorem shared_lines {unit : SourceUnit} (h : unit.root.WellFormed) :
    ∃ located, unit.locate = .ok located ∧
      located.spans =
        ConstructKind.order.flatMap (fun kind => (unit.placedSpansOf kind).map Prod.snd) ∧
      (∀ kind ≠ .methodSignature, InDocumentOrder (unit.placedSpansOf kind)) ∧
      (∀ kind place span, (place, span) ∈ unit.placedSpansOf kind →
        ∃ node, unit.root.nodeAt? place = some node ∧ unit.Shows kind node span) ∧
      ∀ kind place position span other node inner,
        (place, span) ∈ unit.placedSpansOf kind →
        (position, other) ∈ unit.placedSpansOf kind →
        unit.root.nodeAt? place = some node → unit.root.nodeAt? position = some inner →
          (place = position → span.first = other.first ∧ span.last = other.last) ∧
          (place < position → ¬ place <+: position → span.last ≤ other.first) ∧
          (place < position → place <+: position → kind ≠ .methodSignature →
            (span.first = other.first ↔ unit.OnOneLine node.start inner.start) ∧
            (span.last = other.last ↔ unit.OnOneLine inner.stop node.stop)) ∧
          (place < position → place <+: position → kind = .methodSignature →
            (span.first = other.first → unit.startLine inner ≤ unit.startLine node + 1) ∧
            ((node.childByField "body").isSome → (span.last = other.last ↔
              other.last = unit.endLine inner ∧ unit.OnOneLine inner.stop node.stop))) := by
  have hlines := SourceUnit.linesInOrder_of_wellFormed h
  obtain ⟨located, hlocate⟩ := SourceUnit.exists_locate_of_linesInOrder hlines
  refine ⟨located, hlocate, SourceUnit.spans_eq_flatMap_placedSpansOf hlocate,
    fun kind hkind => SourceUnit.inDocumentOrder_placedSpansOf hkind,
    fun kind place span => SourceUnit.lines_of_mem_placedSpansOf hlines, ?_⟩
  intro kind place position span other node inner hspan hother hnode hinner
  obtain ⟨found, hfound, hshows⟩ := SourceUnit.lines_of_mem_placedSpansOf hlines hspan
  obtain ⟨found', hfound', hshows'⟩ := SourceUnit.lines_of_mem_placedSpansOf hlines hother
  obtain rfl := Option.some.inj (hnode.symm.trans hfound)
  obtain rfl := Option.some.inj (hinner.symm.trans hfound')
  refine ⟨?_, ?_, ?_, ?_⟩
  · rintro rfl
    obtain rfl := Option.some.inj (hnode.symm.trans hinner)
    exact hshows.lines_eq hshows'
  · intro hlt habove
    exact hshows.last_le_first hshows' (h.stop_le_start hnode hinner hlt habove)
  · intro _ habove hkind
    obtain ⟨hstart, hstop⟩ := h.inside hnode hinner habove
    exact hshows.block_lines_eq_iff hshows' hkind hstart hstop
  · intro _ habove hkind
    exact hshows.method_lines_eq hshows' hkind (h.inside hnode hinner habove).2

/-- The text of a conditional that is the branch of another, with its tree. -/
def nestedConditionals : SourceUnit :=
  { path := "A.java"
    text := "class A \x7b\n  void f() \x7b\n    if (a) if (b) c();\n  \x7d\n\x7d\n"
    root :=
      ⟨"program", 0, 52, true, false, none,
        [⟨"class_declaration", 0, 51, true, false, none,
          [⟨"class", 0, 5, false, false, none, []⟩,
            ⟨"identifier", 6, 7, true, false, some "name", []⟩,
            ⟨"class_body", 8, 51, true, false, some "body",
              [⟨"\x7b", 8, 9, false, false, none, []⟩,
                ⟨"method_declaration", 12, 49, true, false, none,
                  [⟨"void_type", 12, 16, true, false, some "type", []⟩,
                    ⟨"identifier", 17, 18, true, false, some "name", []⟩,
                    ⟨"formal_parameters", 18, 20, true, false, some "parameters",
                      [⟨"(", 18, 19, false, false, none, []⟩,
                        ⟨")", 19, 20, false, false, none, []⟩]⟩,
                    ⟨"block", 21, 49, true, false, some "body",
                      [⟨"\x7b", 21, 22, false, false, none, []⟩,
                        ⟨"if_statement", 27, 45, true, false, none,
                          [⟨"if", 27, 29, false, false, none, []⟩,
                            ⟨"parenthesized_expression", 30, 33, true, false,
                              some "condition",
                              [⟨"(", 30, 31, false, false, none, []⟩,
                                ⟨"identifier", 31, 32, true, false, none, []⟩,
                                ⟨")", 32, 33, false, false, none, []⟩]⟩,
                            ⟨"if_statement", 34, 45, true, false, some "consequence",
                              [⟨"if", 34, 36, false, false, none, []⟩,
                                ⟨"parenthesized_expression", 37, 40, true, false,
                                  some "condition",
                                  [⟨"(", 37, 38, false, false, none, []⟩,
                                    ⟨"identifier", 38, 39, true, false, none, []⟩,
                                    ⟨")", 39, 40, false, false, none, []⟩]⟩,
                                ⟨"expression_statement", 41, 45, true, false,
                                  some "consequence",
                                  [⟨"method_invocation", 41, 44, true, false, none,
                                    [⟨"identifier", 41, 42, true, false, some "name", []⟩,
                                      ⟨"argument_list", 42, 44, true, false, some "arguments",
                                        [⟨"(", 42, 43, false, false, none, []⟩,
                                          ⟨")", 43, 44, false, false, none, []⟩]⟩]⟩,
                                    ⟨";", 44, 45, false, false, none, []⟩]⟩]⟩]⟩,
                        ⟨"\x7d", 48, 49, false, false, none, []⟩]⟩]⟩,
                ⟨"\x7d", 50, 51, false, false, none, []⟩]⟩]⟩]⟩ }

theorem placedSpansOf_nestedConditionals :
    nestedConditionals.placedSpansOf .conditional =
      [([0, 2, 1, 3, 1], ⟨.conditional "a", 3, 3, Int.le_refl 3⟩),
        ([0, 2, 1, 3, 1, 2], ⟨.conditional "b", 3, 3, Int.le_refl 3⟩)] := by
  decide +kernel

/-- The two conditionals share their lines, as no line ends between their starts or stops. -/
theorem lines_nestedConditionals :
    nestedConditionals.root.WellFormed ∧
      ∃ located, nestedConditionals.locate = .ok located ∧
        ∀ span other, ([0, 2, 1, 3, 1], span) ∈ nestedConditionals.placedSpansOf .conditional →
          ([0, 2, 1, 3, 1, 2], other) ∈ nestedConditionals.placedSpansOf .conditional →
            span.first = other.first ∧ span.last = other.last := by
  have hwell : nestedConditionals.root.WellFormed := by decide +kernel
  obtain ⟨located, hlocate, _, _, _, hpairs⟩ := shared_lines hwell
  refine ⟨hwell, located, hlocate, fun span other hspan hother => ?_⟩
  obtain ⟨_, _, hblocks, _⟩ := hpairs _ _ _ _ _ _ _ hspan hother rfl rfl
  obtain ⟨hfirst, hlast⟩ := hblocks (by decide) (by decide) (by decide)
  exact ⟨hfirst.mpr (by decide +kernel), hlast.mpr (by decide +kernel)⟩

/-- Two conditionals that are no chain start on one line and end on one line. -/
theorem conditionals_share_lines :
    nestedConditionals.root.WellFormed ∧
      ∃ located, nestedConditionals.locate = .ok located ∧
        located.spans = [⟨.method ⟨"A", "f", "", "", true, true, false⟩, 2, 4, by decide⟩,
          ⟨.conditional "a", 3, 3, Int.le_refl 3⟩, ⟨.conditional "b", 3, 3, Int.le_refl 3⟩] ∧
        (nestedConditionals.placedSpansOf .conditional).map Prod.fst =
          [[0, 2, 1, 3, 1], [0, 2, 1, 3, 1, 2]] ∧
        ∀ position ∈ [[0, 2, 1, 3, 1], [0, 2, 1, 3, 1, 2]],
          (nestedConditionals.root.nodeAt? position).bind (·.childByField "alternative") =
            none := by
  refine ⟨by decide +kernel, ⟨_, []⟩, ?_, rfl, ?_, ?_⟩
  · decide +kernel
  · rw [placedSpansOf_nestedConditionals]
    rfl
  · intro position hposition
    rcases List.mem_cons.mp hposition with rfl | hinner
    · rfl
    · rw [List.mem_singleton.mp hinner]
      rfl

end JavaSketch
