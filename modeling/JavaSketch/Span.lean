import JavaSketch.Construct

/-!
# Spans of lines

A span says which lines a construct covers, both boundary lines included.
Lines are counted from one; a span may lie outside the text it is applied to,
so its lines are integers.

**Results.**
* `ofLines_eq_ok_iff`: lines in order make a span, and no others do.
* `mem_touched`: a span is written on its boundary lines at most.
-/

namespace JavaSketch

/-- A construct with the lines it covers. -/
structure Span where
  /-- What is shown. -/
  construct : Construct
  /-- The line it starts on. -/
  first : Int
  /-- The line it ends on. -/
  last : Int
  /-- A span does not end before it starts. -/
  first_le_last : first ≤ last
  deriving DecidableEq

namespace Span

/-- The span from one line to another. -/
def ofLines (construct : Construct) (first last : Int) : Except Failure Span :=
  if h : first ≤ last then .ok ⟨construct, first, last, h⟩
  else .error (.reversedSpan construct.kind.name first last)

/-- The lines that a span is written on: its first, and its last if the
construct has a footer. -/
def touched (span : Span) : List Int :=
  match span.construct.footer with
  | some _ => [span.first, span.last]
  | none => [span.first]

/-- The method that a span covers, if it covers one. -/
def signature? (span : Span) : Option MethodSignature :=
  span.construct.signature?

theorem ofLines_eq_ok_iff {construct : Construct} {first last : Int} {span : Span} :
    ofLines construct first last = .ok span ↔
      span.construct = construct ∧ span.first = first ∧ span.last = last := by
  unfold ofLines
  split
  · cases span
    simp [eq_comm]
  · rename_i h
    simp only [reduceCtorEq, false_iff, not_and]
    intro _ hfirst hlast
    exact h (hfirst ▸ hlast ▸ span.first_le_last)

theorem mem_touched {span : Span} {line : Int} (h : line ∈ span.touched) :
    line = span.first ∨ line = span.last := by
  unfold touched at h
  split at h
  · simpa using h
  · exact Or.inl (by simpa using h)

end Span

end JavaSketch
