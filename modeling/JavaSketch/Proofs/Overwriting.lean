import JavaSketch.Conversion
import JavaSketch.Proofs.Locating

/-!
# Overwritten lines

Any number of spans can write on one line, and each takes the indentation from
the line as the spans before it have left it.  Since every header and footer of
a located construct begins with a character that is not blank, the indentation
never changes: a line ends as its own indentation followed by the last text
written on it.

**Invariant.**  After some writes a line is what `overwrite` makes of the
original line and the texts written on it so far.  It holds for all texts; that
only the last of them counts (`overwrite_eq_rewritten`) needs texts that begin
with a character that is not blank.

**Results.**
* `line?_writeSpans`: the texts that reach a line, and what they make of it.
* `diagnostics_writeSpans`: one report for each span that does not fit.
* `convert_shows_last_text`: the closed form of a conversion.
-/

namespace JavaSketch

open Syntax (Node SourceUnit)

namespace Text

/-- Whether a text begins with a character that is not blank. -/
def beginsNonblank (text : String) : Bool :=
  text.toList.head?.any (!isBlank ·)

/-- A line on which texts are written one after the other, each behind the
indentation of what is there. -/
def overwrite (line : String) (texts : List String) : String :=
  texts.foldl (fun current text => indentation current ++ text) line

/-- A line with a text behind its indentation, if there is a text for it. -/
def rewritten (line : String) : Option String → String
  | some text => indentation line ++ text
  | none => line

theorem beginsNonblank_append {first : String} (h : beginsNonblank first)
    (second : String) : beginsNonblank (first ++ second) := by
  unfold beginsNonblank at h ⊢
  cases hfirst : first.toList with
  | nil => simp [hfirst] at h
  | cons c cs => simpa [hfirst] using h

/-- A text that begins with a character that is not blank leaves the indentation
it is written behind. -/
theorem indentation_append (line : String) {text : String} (h : beginsNonblank text) :
    indentation (indentation line ++ text) = indentation line := by
  have hblank : ∀ d ∈ leadingBlankChars line.toList, isBlank d :=
    List.all_eq_true.mp List.all_takeWhile
  have htext : leadingBlankChars text.toList = [] := by
    unfold beginsNonblank at h
    cases hcs : text.toList with
    | nil => rfl
    | cons c cs =>
        have hc : isBlank c = false := by simpa [hcs] using h
        simp [leadingBlankChars, hc]
  have htake : leadingBlankChars (leadingBlankChars line.toList ++ text.toList) =
      leadingBlankChars line.toList := by
    rw [leadingBlankChars, List.takeWhile_append_of_pos hblank]
    exact (congrArg _ htext).trans (List.append_nil _)
  simp [indentation, htake]

theorem overwrite_append (line : String) (first second : List String) :
    overwrite line (first ++ second) = overwrite (overwrite line first) second := by
  simp [overwrite]

/-- Of texts that begin with a character that is not blank only the last one
shows, behind the indentation of the original line. -/
theorem overwrite_eq_rewritten {texts : List String}
    (h : ∀ text ∈ texts, beginsNonblank text) (line : String) :
    overwrite line texts = rewritten line texts.getLast? := by
  induction texts generalizing line with
  | nil => rfl
  | cons text rest ih =>
      have hrest : ∀ later ∈ rest, beginsNonblank later := fun later hlater =>
        h later (List.mem_cons_of_mem text hlater)
      have hstep : overwrite line (text :: rest) =
          overwrite (indentation line ++ text) rest := rfl
      rw [hstep, ih hrest, List.getLast?_cons]
      cases rest.getLast? with
      | none => rfl
      | some last =>
          simp [rewritten, indentation_append line (h text List.mem_cons_self)]

end Text

namespace MethodSignature

theorem beginsNonblank_routineWord (method : MethodSignature) :
    Text.beginsNonblank method.routineWord := by
  unfold routineWord
  split <;> decide

theorem beginsNonblank_header {method : MethodSignature}
    (h : method.access = "" ∨ method.access ∈ accessKeywords) :
    Text.beginsNonblank method.header := by
  unfold header
  split
  · exact Text.beginsNonblank_append (Text.beginsNonblank_append
      (Text.beginsNonblank_append (Text.beginsNonblank_append
        (Text.beginsNonblank_append method.beginsNonblank_routineWord _) _) _) _) _
  · rename_i hsome
    have hkeywords : ∀ keyword ∈ accessKeywords, Text.beginsNonblank keyword := by
      decide
    have haccess := hkeywords method.access (h.resolve_left hsome)
    exact Text.beginsNonblank_append (Text.beginsNonblank_append haccess _) _

theorem beginsNonblank_footer {method : MethodSignature} {text : String}
    (h : method.footer = some text) : Text.beginsNonblank text := by
  unfold footer at h
  split at h
  · obtain rfl := Option.some.inj h
    exact Text.beginsNonblank_append (by decide) _
  · simp at h

end MethodSignature

namespace Construct

theorem beginsNonblank_header {construct : Construct}
    (h : ∀ method ∈ construct.signature?,
      method.access = "" ∨ method.access ∈ accessKeywords) :
    Text.beginsNonblank construct.header := by
  cases construct with
  | method signature => exact MethodSignature.beginsNonblank_header (h signature rfl)
  | forLoop initializer bound counter =>
      exact Text.beginsNonblank_append (Text.beginsNonblank_append
        (Text.beginsNonblank_append (by decide) _) _) _
  | forEachLoop element iterable =>
      exact Text.beginsNonblank_append (Text.beginsNonblank_append
        (Text.beginsNonblank_append (by decide) _) _) _
  | conditional condition =>
      exact Text.beginsNonblank_append (Text.beginsNonblank_append (by decide) _) _
  | switchBlock selector => exact Text.beginsNonblank_append (by decide) _

theorem beginsNonblank_footer {construct : Construct} {text : String}
    (h : construct.footer = some text) : Text.beginsNonblank text := by
  cases construct with
  | method signature => exact MethodSignature.beginsNonblank_footer h
  | forLoop initializer bound counter =>
      obtain rfl := Option.some.inj h
      exact Text.beginsNonblank_append (by decide) _
  | forEachLoop element iterable =>
      obtain rfl := Option.some.inj h
      exact Text.beginsNonblank_append (by decide) _
  | conditional condition =>
      obtain rfl := Option.some.inj h
      decide
  | switchBlock selector =>
      obtain rfl := Option.some.inj h
      decide

end Construct

namespace Syntax.SourceUnit

theorem access_methodSignature (unit : SourceUnit) (declaration method : Node) :
    (unit.methodSignature declaration method).access = "" ∨
      (unit.methodSignature declaration method).access ∈ accessKeywords := by
  simp only [methodSignature]
  cases hfind : method.modifierTypes.find? (accessKeywords.contains ·) with
  | none => exact Or.inl rfl
  | some keyword => exact Or.inr (by simpa using List.find?_some hfind)

/-- The constructs of a tree have only access keywords as access words. -/
theorem access_of_construct_eq_ok {unit : SourceUnit} {candidate : Candidate}
    {construct : Construct} (h : candidate.construct unit = .ok construct)
    {method : MethodSignature} (hmethod : method ∈ construct.signature?) :
    method.access = "" ∨ method.access ∈ accessKeywords := by
  have hkind := Candidate.kind_of_construct_eq_ok h
  cases construct with
  | method signature =>
      obtain rfl := Option.some.inj hmethod
      cases candidate with
      | method declaration node =>
          obtain rfl := Construct.method.inj (Except.ok.inj h)
          exact unit.access_methodSignature declaration node
      | forLoop node | forEachLoop node | conditional node | switchBlock node =>
          simp [Construct.kind, Candidate.kind] at hkind
  | forLoop initializer bound counter => simp [Construct.signature?] at hmethod
  | forEachLoop element iterable => simp [Construct.signature?] at hmethod
  | conditional condition => simp [Construct.signature?] at hmethod
  | switchBlock selector => simp [Construct.signature?] at hmethod

end Syntax.SourceUnit

/-- Whether a number is that of a line when there are `size` lines. -/
def isLineOf (size : Nat) (line : Int) : Bool :=
  1 ≤ line && line ≤ size

namespace Span

/-- The texts that a span puts on lines, in the order in which it writes them. -/
def writes (span : Span) : List (Int × String) :=
  (span.first, span.construct.header) ::
    (span.construct.footer.map fun text => (span.last, text)).toList

/-- Whether all lines that a span is written on are among the first `size`. -/
def fits (size : Nat) (span : Span) : Bool :=
  span.touched.all (isLineOf size)

/-- The line that is reported of a span that does not fit: the first one it is
written on that is not among the first `size`. -/
def outsideLine (size : Nat) (span : Span) : Int :=
  if isLineOf size span.first then span.last else span.first

/-- The report on a span that does not fit. -/
def outsideDiagnostic (size : Nat) (span : Span) : Diagnostic :=
  .outside span.construct.kind span.first span.last (span.outsideLine size) size

/-- The texts that some spans write on a line of a buffer of some size, in the
order in which they write them; a span that does not fit writes none. -/
def textsOn (size : Nat) (spans : List Span) (line : Int) : List String :=
  (((spans.filter (·.fits size)).flatMap writes).filter (·.1 == line)).map (·.2)

theorem find?_touched (size : Nat) (span : Span) :
    span.touched.find? (!isLineOf size ·) =
      if span.fits size then none else some (span.outsideLine size) := by
  unfold fits outsideLine touched
  cases span.construct.footer with
  | none => cases hfirst : isLineOf size span.first <;> simp [hfirst]
  | some footer =>
      cases hfirst : isLineOf size span.first <;>
        cases hlast : isLineOf size span.last <;> simp [hfirst, hlast]

theorem textsOn_nil (size : Nat) (line : Int) : textsOn size [] line = [] := rfl

theorem textsOn_cons_of_fits {size : Nat} {span : Span} (h : span.fits size)
    (rest : List Span) (line : Int) :
    textsOn size (span :: rest) line =
      (span.writes.filter (·.1 == line)).map (·.2) ++ textsOn size rest line := by
  simp [textsOn, h]

theorem textsOn_cons_of_not_fits {size : Nat} {span : Span} (h : span.fits size = false)
    (rest : List Span) (line : Int) :
    textsOn size (span :: rest) line = textsOn size rest line := by
  simp [textsOn, h]

end Span

namespace LineBuffer

theorem line?_writeIndented (buffer : LineBuffer) (line other : Int) (text : String) :
    (buffer.writeIndented line text).line? other =
      (buffer.line? other).map fun old =>
        Text.overwrite old (if line = other then [text] else []) := by
  rw [writeIndented, line?_replaceAt]
  split
  · rfl
  · simp [Text.overwrite]

/-- A span makes of each line what the texts it puts there make of it. -/
theorem line?_writeBoundaries (buffer : LineBuffer) (span : Span) (line : Int) :
    (buffer.writeBoundaries span).line? line =
      (buffer.line? line).map fun old =>
        Text.overwrite old ((span.writes.filter (·.1 == line)).map (·.2)) := by
  unfold writeBoundaries Span.writes
  cases span.construct.footer with
  | none =>
      rw [line?_writeIndented]
      by_cases hfirst : span.first = line <;> simp [hfirst]
  | some footer =>
      rw [line?_writeIndented, line?_writeIndented, Option.map_map]
      by_cases hfirst : span.first = line <;> by_cases hlast : span.last = line <;>
        simp [hfirst, hlast, Function.comp_def, ← Text.overwrite_append]

/-- Only a span that fits is written; any other is reported. -/
theorem writeSpan_eq (buffer : LineBuffer) (span : Span) :
    buffer.writeSpan span =
      if span.fits buffer.size then (buffer.writeBoundaries span, none)
      else (buffer, some (span.outsideDiagnostic buffer.size)) := by
  have hfirst : buffer.firstOutside span =
      if span.fits buffer.size then none else some (span.outsideLine buffer.size) :=
    span.find?_touched buffer.size
  unfold writeSpan
  rw [hfirst]
  cases span.fits buffer.size <;> rfl

/-- Writing spans makes of each line what the texts of the fitting spans make of
it, one after the other. -/
theorem line?_writeSpans (buffer : LineBuffer) (spans : List Span) (line : Int) :
    (buffer.writeSpans spans).1.line? line =
      (buffer.line? line).map fun old =>
        Text.overwrite old (Span.textsOn buffer.size spans line) := by
  induction spans generalizing buffer with
  | nil => simp [writeSpans, Span.textsOn_nil, Text.overwrite]
  | cons span rest ih =>
      have hsize : (buffer.writeSpan span).1.size = buffer.size :=
        buffer.size_writeSpan span
      have hrun : (buffer.writeSpans (span :: rest)).1 =
          ((buffer.writeSpan span).1.writeSpans rest).1 := rfl
      rw [hrun, ih, hsize, writeSpan_eq]
      cases hfits : span.fits buffer.size with
      | true =>
          simp [line?_writeBoundaries, Span.textsOn_cons_of_fits hfits,
            Text.overwrite_append, Function.comp_def]
      | false => simp [Span.textsOn_cons_of_not_fits hfits]

/-- Each span that does not fit is reported once, in the order of the spans. -/
theorem diagnostics_writeSpans (buffer : LineBuffer) (spans : List Span) :
    (buffer.writeSpans spans).2 =
      (spans.filter (!·.fits buffer.size)).map (·.outsideDiagnostic buffer.size) := by
  induction spans generalizing buffer with
  | nil => rfl
  | cons span rest ih =>
      have hsize : (buffer.writeSpan span).1.size = buffer.size :=
        buffer.size_writeSpan span
      have hrun : (buffer.writeSpans (span :: rest)).2 =
          (buffer.writeSpan span).2.toList ++
            ((buffer.writeSpan span).1.writeSpans rest).2 := rfl
      rw [hrun, ih, hsize, writeSpan_eq]
      cases hfits : span.fits buffer.size <;> simp [hfits]

theorem line?_cleanup (buffer : LineBuffer) (line : Int) :
    buffer.cleanup.line? line = (buffer.line? line).map cleanLine := by
  unfold cleanup line?
  split <;> simp

end LineBuffer

namespace Span

/-- The text that is written last on a line of a buffer of some size. -/
def lastText (size : Nat) (spans : List Span) (line : Int) : Option String :=
  (textsOn size spans line).getLast?

/-- Every text of some spans that reaches a line is a header or a footer. -/
theorem exists_of_mem_textsOn {size : Nat} {spans : List Span} {line : Int}
    {text : String} (h : text ∈ textsOn size spans line) :
    ∃ span ∈ spans, text = span.construct.header ∨ span.construct.footer = some text := by
  obtain ⟨write, hwrite, rfl⟩ := List.mem_map.mp h
  obtain ⟨span, hspan, hmem⟩ := List.mem_flatMap.mp (List.mem_filter.mp hwrite).1
  refine ⟨span, (List.mem_filter.mp hspan).1, ?_⟩
  rcases List.mem_cons.mp hmem with rfl | hfooter
  · exact Or.inl rfl
  · obtain ⟨text, htext, rfl⟩ := Option.map_eq_some_iff.mp (Option.mem_toList.mp hfooter)
    exact Or.inr htext

end Span

namespace Syntax.SourceUnit

theorem beginsNonblank_of_mem_textsOn {unit : SourceUnit} {located : Located}
    (h : unit.locate = .ok located) {size : Nat} {line : Int} {text : String}
    (htext : text ∈ Span.textsOn size located.spans line) : Text.beginsNonblank text := by
  obtain ⟨span, hspan, hboundary⟩ := Span.exists_of_mem_textsOn htext
  obtain ⟨candidate, _, hconstruct, _⟩ := exists_candidate_of_mem_spans h hspan
  rcases hboundary with rfl | hfooter
  · exact Construct.beginsNonblank_header fun method hmethod =>
      access_of_construct_eq_ok hconstruct hmethod
  · exact Construct.beginsNonblank_footer hfooter

theorem convert_eq_ok {unit : SourceUnit} {located : Located}
    (h : unit.locate = .ok located) (lines : Option LineBuffer) :
    unit.convert lines = .ok (.ofLocated located (lines.getD unit.buffer)) := by
  simp [convert, h, bind, Except.bind, pure, Except.pure]

/-- A line of a conversion is the original line with the text written last behind
its indentation, cleaned. -/
theorem line?_ofLocated {unit : SourceUnit} {located : Located}
    (h : unit.locate = .ok located) (buffer : LineBuffer) (line : Int) :
    (Conversion.ofLocated located buffer).buffer.line? line =
      (buffer.line? line).map fun old => cleanLine
        (Text.rewritten old (Span.lastText buffer.size located.spans line)) := by
  have hlast : ∀ old, Text.overwrite old (Span.textsOn buffer.size located.spans line) =
      Text.rewritten old (Span.lastText buffer.size located.spans line) :=
    Text.overwrite_eq_rewritten fun _ htext => beginsNonblank_of_mem_textsOn h htext
  have hclean : (Conversion.ofLocated located buffer).buffer =
      (buffer.writeSpans located.spans).1.cleanup := rfl
  rw [hclean, LineBuffer.line?_cleanup, LineBuffer.line?_writeSpans, Option.map_map]
  simp only [Function.comp_def, hlast]

end Syntax.SourceUnit

theorem LineBuffer.exists_line?_eq_some {buffer : LineBuffer} {line : Int}
    (h : 1 ≤ line ∧ line ≤ buffer.size) : ∃ old, buffer.line? line = some old :=
  Option.isSome_iff_exists.mp (line?_isSome.mpr (contains_iff.mpr h))

/-- **Closed form of a conversion.**  The number of lines is kept; each line shows
the text written last on it, behind the indentation of the original line; and
each span that does not fit into the buffer is reported once. -/
theorem convert_shows_last_text {unit : SourceUnit} {located : Located}
    (hlocate : unit.locate = .ok located) (lines : Option LineBuffer) :
    ∃ conversion, unit.convert lines = .ok conversion ∧
      conversion.buffer.size = (lines.getD unit.buffer).size ∧
      (∀ line : Int, 1 ≤ line ∧ line ≤ (lines.getD unit.buffer).size →
        ∃ old, (lines.getD unit.buffer).line? line = some old ∧
          conversion.buffer.line? line = some (cleanLine (Text.rewritten old
            (Span.lastText (lines.getD unit.buffer).size located.spans line)))) ∧
      conversion.diagnostics = located.diagnostics ++
        (located.spans.filter (!·.fits (lines.getD unit.buffer).size)).map
          (·.outsideDiagnostic (lines.getD unit.buffer).size) := by
  refine ⟨_, Syntax.SourceUnit.convert_eq_ok hlocate lines,
    Conversion.size_ofLocated _ _, ?_, ?_⟩
  · intro line hline
    obtain ⟨old, hold⟩ := LineBuffer.exists_line?_eq_some hline
    refine ⟨old, hold, ?_⟩
    rw [Syntax.SourceUnit.line?_ofLocated hlocate, hold, Option.map_some]
  · exact congrArg _ (LineBuffer.diagnostics_writeSpans _ _)

/-- The footer of a conditional on one line replaces its header. -/
theorem convert_oneLineConditional :
    oneLineConditional.locate = .ok ⟨[⟨.conditional "a", 1, 1, Int.le_refl 1⟩], []⟩ ∧
      ∃ conversion, oneLineConditional.convert none = .ok conversion ∧
        conversion.buffer.line? 1 = some "  endif" ∧ conversion.diagnostics = [] := by
  obtain ⟨conversion, hconvert, _, hlines, hdiagnostics⟩ :=
    convert_shows_last_text locate_oneLineConditional none
  refine ⟨locate_oneLineConditional, conversion, hconvert, ?_, ?_⟩
  · obtain ⟨old, hold, hline⟩ := hlines 1 (by decide +kernel)
    have hsource : oneLineConditional.buffer.line? 1 = some "  if(a)\x7b\x7d" := by
      decide +kernel
    obtain rfl := Option.some.inj (hold.symm.trans hsource)
    rw [hline]
    decide +kernel
  · rw [hdiagnostics]
    decide +kernel

end JavaSketch
