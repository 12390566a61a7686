import JavaSketch.Pseudocode
import JavaSketch.Span.Locate

/-!
# Converting a file to pseudocode

A conversion locates every construct in the unchanged tree, writes the spans
into the lines of the file and cleans all lines.  Since no line comes or goes, a
method can afterwards be cut out by the lines it had in the source.

**Results.**
* `size_convert`: a conversion keeps the number of lines.
* `methodLines_of_no_body`: a method without a body has nothing to show.
-/

namespace JavaSketch

open Syntax (SourceUnit)

namespace Span

/-- Whether a span covers a method with a body. -/
def hasBody (span : Span) : Bool :=
  span.signature?.any (·.hasBody)

end Span

namespace LineBuffer

/-- The lines of a method, from the one that announces it to the one that ends
it; none if the method has no body. -/
def methodLines (buffer : LineBuffer) (span : Span) : List String :=
  if span.hasBody then buffer.slice (span.first - 1) span.last else []

theorem methodLines_of_no_body {buffer : LineBuffer} {span : Span}
    (h : span.hasBody = false) : buffer.methodLines span = [] := by
  simp [methodLines, h]

end LineBuffer

/-- A file after its conversion. -/
structure Conversion where
  /-- The lines of pseudocode. -/
  buffer : LineBuffer
  /-- The spans of the methods, in the order in which they were located. -/
  methods : List Span
  /-- The reports on constructs that were passed over. -/
  diagnostics : List Diagnostic
  deriving DecidableEq

namespace Conversion

/-- The lines of pseudocode of one method. -/
def methodLines (conversion : Conversion) (method : Span) : List String :=
  conversion.buffer.methodLines method

/-- What becomes of a buffer once the located constructs are written into it. -/
def ofLocated (located : Located) (buffer : LineBuffer) : Conversion :=
  let (written, diagnostics) := buffer.writeSpans located.spans
  { buffer := written.cleanup
    methods := located.spans.filter (·.signature?.isSome)
    diagnostics := located.diagnostics ++ diagnostics }

theorem size_ofLocated (located : Located) (buffer : LineBuffer) :
    (ofLocated located buffer).buffer.size = buffer.size := by
  simp [ofLocated, LineBuffer.size_cleanup, LineBuffer.size_writeSpans]

end Conversion

namespace Syntax.SourceUnit

/-- The lines of the text of a unit. -/
def buffer (unit : SourceUnit) : LineBuffer :=
  ⟨Text.splitLines unit.text⟩

/-- Converts a unit, writing into given lines instead of its own if there are
any. -/
def convert (unit : SourceUnit) (lines : Option LineBuffer) :
    Except Failure Conversion := do
  let located ← unit.locate
  return .ofLocated located (lines.getD unit.buffer)

theorem size_convert {unit : SourceUnit} {lines : Option LineBuffer}
    {conversion : Conversion} (h : unit.convert lines = .ok conversion) :
    conversion.buffer.size = (lines.getD unit.buffer).size := by
  unfold convert at h
  cases hl : unit.locate with
  | error failure => simp [hl, bind, Except.bind] at h
  | ok located =>
      simp only [hl, bind, Except.bind, pure, Except.pure, Except.ok.injEq] at h
      rw [← h, Conversion.size_ofLocated]

end Syntax.SourceUnit

end JavaSketch
