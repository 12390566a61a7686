import JavaSketch.Diagnostic
import JavaSketch.LineBuffer
import JavaSketch.Span

/-!
# Writing pseudocode into a buffer

A span is written by giving its first line the header of its construct and its
last line the footer, each behind the indentation the line has.  The lines
between them are left to the cleanup, which strips one terminator from every
line and blanks out the braces.

**Rules.**
* A span with a boundary line outside the buffer writes nothing and is reported.
* Spans are written in the order given, so the later of two wins a shared line.

**Results.**
* `size_writeSpans`, `size_cleanup`: no line is added or removed.
* `brace_not_mem_cleanChars`: no brace is left after the cleanup.
-/

namespace JavaSketch

namespace LineBuffer

/-- The buffer with a new text on a line, behind the indentation of the old. -/
def writeIndented (buffer : LineBuffer) (line : Int) (text : String) : LineBuffer :=
  buffer.replaceAt line fun old => Text.indentation old ++ text

/-- The report that a line of a span is outside the buffer. -/
def outsideDiagnostic (buffer : LineBuffer) (span : Span) (line : Int) : Diagnostic :=
  .outside span.construct.kind span.first span.last line buffer.size

/-- The first line of a span to be written that the buffer does not have. -/
def firstOutside (buffer : LineBuffer) (span : Span) : Option Int :=
  span.touched.find? (!buffer.contains ·)

/-- The buffer with the boundary lines of a span written. -/
def writeBoundaries (buffer : LineBuffer) (span : Span) : LineBuffer :=
  let opened := buffer.writeIndented span.first span.construct.header
  match span.construct.footer with
  | some footer => opened.writeIndented span.last footer
  | none => opened

/-- Writes a span whose lines the buffer has; reports any other. -/
def writeSpan (buffer : LineBuffer) (span : Span) : LineBuffer × Option Diagnostic :=
  match buffer.firstOutside span with
  | some line => (buffer, some (buffer.outsideDiagnostic span line))
  | none => (buffer.writeBoundaries span, none)

/-- Writes spans one after the other and collects the reports. -/
def writeSpans (buffer : LineBuffer) : List Span → LineBuffer × List Diagnostic
  | [] => (buffer, [])
  | span :: rest =>
      let (written, diagnostic) := buffer.writeSpan span
      let (final, diagnostics) := written.writeSpans rest
      (final, diagnostic.toList ++ diagnostics)

end LineBuffer

/-- The characters that pseudocode has no use for inside a line. -/
def isBrace (c : Char) : Bool :=
  c == '\x7b' || c == '\x7d'

/-- A line without its terminator and with a space for each brace. -/
def cleanChars (cs : List Char) : List Char :=
  let body := if cs.getLast? = some ';' then cs.dropLast else cs
  body.map fun c => if isBrace c then ' ' else c

/-- A line without its terminator and with a space for each brace. -/
def cleanLine (line : String) : String :=
  String.ofList (cleanChars line.toList)

namespace LineBuffer

/-- The buffer with every line cleaned. -/
def cleanup (buffer : LineBuffer) : LineBuffer :=
  ⟨buffer.lines.map cleanLine⟩

theorem size_writeIndented (buffer : LineBuffer) (line : Int) (text : String) :
    (buffer.writeIndented line text).size = buffer.size :=
  size_replaceAt _ _ _

theorem size_writeSpan (buffer : LineBuffer) (span : Span) :
    (buffer.writeSpan span).1.size = buffer.size := by
  unfold writeSpan writeBoundaries
  split
  · rfl
  · split <;> simp [size_writeIndented]

theorem size_writeSpans (buffer : LineBuffer) (spans : List Span) :
    (buffer.writeSpans spans).1.size = buffer.size := by
  induction spans generalizing buffer with
  | nil => rfl
  | cons span rest ih => simp [writeSpans, ih, size_writeSpan]

theorem size_cleanup (buffer : LineBuffer) : buffer.cleanup.size = buffer.size := by
  simp [cleanup, size]

end LineBuffer

theorem brace_not_mem_cleanChars {c : Char} (h : isBrace c) (cs : List Char) :
    c ∉ cleanChars cs := by
  simp only [cleanChars, List.mem_map, not_exists, not_and]
  intro d _
  split
  · rintro rfl
    exact absurd h (by decide)
  · rename_i hd
    rintro rfl
    exact hd h

end JavaSketch
