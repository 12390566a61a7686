import JavaSketch.Proofs.LineFeeds
import JavaSketch.Proofs.Overwriting

/-!
# Spans within the text

Where the nodes that may be shown cover bytes of the text and do not end with a
line feed, all their lines are lines of the text.  This includes an annotated
method, whose header is taken to be one line further down, and a method without
a body, which covers its header only.

**Results.**
* `lines_of_covers`: the lines of a candidate, in order and within the text.
* `getElem?_slice`: the slice between two lines has the lines that the buffer has.
* `convert_stays_within_lines`: nothing is reported outside, no method is cut short.
-/

namespace JavaSketch

open Syntax (Node SourceUnit)

namespace Syntax.SourceUnit

/-- Whether a node covers bytes of the text, the last of which is not a line feed. -/
def Covers (unit : SourceUnit) (node : Node) : Prop :=
  node.start < node.stop ∧ node.stop ≤ unit.bytes.size ∧
    unit.bytes.data.toList[node.stop - 1]? ≠ some 0x0A

instance (unit : SourceUnit) (node : Node) : Decidable (unit.Covers node) :=
  inferInstanceAs (Decidable (_ ∧ _ ∧ _))

theorem startLine_le_endLine_of_covers {unit : SourceUnit} {node : Node}
    (h : unit.Covers node) : unit.startLine node ≤ unit.endLine node :=
  unit.lineAt_mono (Nat.le_of_lt h.1)

theorem endLine_le_size_buffer_of_covers {unit : SourceUnit} {node : Node}
    (h : unit.Covers node) : unit.endLine node ≤ unit.buffer.size := by
  obtain ⟨hstart, hstop, hbyte⟩ := h
  have hend : unit.lineAt (node.stop - 1 + 1) ≤ unit.buffer.size :=
    lineAt_le_size_buffer (by omega) hbyte
  rwa [Nat.sub_add_cancel (by omega)] at hend

/-- The header line of a method is one of its lines. -/
theorem methodHeaderLine_bounds (unit : SourceUnit) {method : Node}
    (h : unit.startLine method ≤ unit.endLine method) :
    unit.startLine method ≤ unit.methodHeaderLine method ∧
      unit.methodHeaderLine method ≤ unit.endLine method := by
  unfold methodHeaderLine
  split <;> omega

end Syntax.SourceUnit

namespace Candidate

/-- The lines of a candidate are in order and among those of its node. -/
theorem lines_of_startLine_le_endLine {unit : SourceUnit} {candidate : Candidate}
    (h : unit.startLine candidate.node ≤ unit.endLine candidate.node) :
    unit.startLine candidate.node ≤ candidate.firstLine unit ∧
      candidate.firstLine unit ≤ candidate.lastLine unit ∧
      candidate.lastLine unit ≤ unit.endLine candidate.node := by
  cases candidate with
  | method declaration method =>
      obtain ⟨hlow, hhigh⟩ := unit.methodHeaderLine_bounds h
      simp only [Candidate.node] at hlow hhigh ⊢
      simp only [firstLine, lastLine, SourceUnit.methodLastLine]
      split <;> omega
  | forLoop node | forEachLoop node | conditional node | switchBlock node =>
      exact ⟨Nat.le_refl _, h, Nat.le_refl _⟩

theorem one_le_firstLine (unit : SourceUnit) (candidate : Candidate) :
    1 ≤ candidate.firstLine unit := by
  have hstart : 1 ≤ unit.startLine candidate.node := unit.lineAt_pos _
  cases candidate with
  | method declaration method =>
      have hend : 1 ≤ unit.endLine method := unit.lineAt_pos _
      simp only [Candidate.node] at hstart
      simp only [firstLine, SourceUnit.methodHeaderLine]
      split <;> omega
  | forLoop node | forEachLoop node | conditional node | switchBlock node => exact hstart

/-- A candidate whose node covers bytes of the text covers lines of the text. -/
theorem lines_of_covers {unit : SourceUnit} {candidate : Candidate}
    (h : unit.Covers candidate.node) :
    1 ≤ candidate.firstLine unit ∧
      candidate.firstLine unit ≤ candidate.lastLine unit ∧
      candidate.lastLine unit ≤ unit.buffer.size := by
  obtain ⟨hfirst, horder, hlast⟩ :=
    lines_of_startLine_le_endLine (SourceUnit.startLine_le_endLine_of_covers h)
  have hpos : 1 ≤ unit.startLine candidate.node := unit.lineAt_pos _
  exact ⟨Nat.le_trans hpos hfirst, horder,
    Nat.le_trans hlast (SourceUnit.endLine_le_size_buffer_of_covers h)⟩

end Candidate

namespace LineBuffer

theorem boundary_of_le {buffer : LineBuffer} {index : Int}
    (h : 0 ≤ index ∧ index ≤ buffer.size) : buffer.boundary index = index.toNat := by
  unfold boundary
  simp only [if_neg (show ¬ index < 0 by omega)]
  omega

theorem slice_of_lines {buffer : LineBuffer} {first last : Int} (hfirst : 1 ≤ first)
    (horder : first ≤ last) (hlast : last ≤ buffer.size) :
    buffer.slice (first - 1) last =
      (buffer.lines.drop (first - 1).toNat).take (last.toNat - (first - 1).toNat) := by
  have hlow : buffer.boundary (first - 1) = (first - 1).toNat :=
    boundary_of_le (by omega)
  have hhigh : buffer.boundary last = last.toNat := boundary_of_le (by omega)
  rw [slice, hlow, hhigh, List.extract_eq_take_drop]

/-- The slice between two lines of a buffer has one line for each of them. -/
theorem length_slice_of_lines {buffer : LineBuffer} {first last : Int}
    (hfirst : 1 ≤ first) (horder : first ≤ last) (hlast : last ≤ buffer.size) :
    ((buffer.slice (first - 1) last).length : Int) = last - first + 1 := by
  rw [slice_of_lines hfirst horder hlast, List.length_take, List.length_drop]
  unfold size at hlast
  omega

/-- The slice between two lines has all that the buffer has of them, in order; where the
second is outside the buffer, the slice ends with the buffer. -/
theorem getElem?_slice {buffer : LineBuffer} {first last : Int} (hfirst : 1 ≤ first)
    (horder : first ≤ last) (index : Nat) :
    (buffer.slice (first - 1) last)[index]? =
      if first + index ≤ last then buffer.line? (first + index) else none := by
  have hlow : buffer.boundary (first - 1) = min (first - 1).toNat buffer.size := by
    simp only [boundary, if_neg (show ¬ first - 1 < 0 by omega)]
  have hhigh : buffer.boundary last = min last.toNat buffer.size := by
    simp only [boundary, if_neg (show ¬ last < 0 by omega)]
  rw [slice, hlow, hhigh, List.extract_eq_take_drop]
  by_cases hline : first + index ≤ buffer.size
  · have hdropped : min (first - 1).toNat buffer.size + index = (first + index - 1).toNat := by
      omega
    have hindex : index < min last.toNat buffer.size - min (first - 1).toNat buffer.size ↔
        first + index ≤ last := by
      omega
    have hpos : 1 ≤ first + (index : Int) := by omega
    rw [List.getElem?_take, List.getElem?_drop, hdropped, line?, if_pos hpos]
    exact if_congr hindex rfl rfl
  · -- no such line is in the buffer, so it is not in the slice either
    have hnone : buffer.line? (first + index) = none := by
      rw [line?, if_pos (by omega), List.getElem?_eq_none_iff]
      unfold size at hline
      omega
    rw [hnone, ite_self, List.getElem?_eq_none_iff, List.length_take]
    omega

end LineBuffer

namespace Span

theorem fits_of_lines {size : Nat} {span : Span} (hfirst : 1 ≤ span.first)
    (hlast : span.last ≤ size) : span.fits size := by
  refine List.all_eq_true.mpr fun line hline => ?_
  have horder := span.first_le_last
  have hbounds : 1 ≤ line ∧ line ≤ size := by
    rcases mem_touched hline with rfl | rfl <;> omega
  simpa [isLineOf] using hbounds

end Span

namespace Syntax.SourceUnit

/-- Whether every node that may be shown covers bytes of the text, the last of
which is not a line feed. -/
def CoversConstructs (unit : SourceUnit) : Prop :=
  ∀ node ∈ unit.root.preorder, node.type ∈ constructTypes → unit.Covers node

instance (unit : SourceUnit) : Decidable unit.CoversConstructs :=
  inferInstanceAs (Decidable (∀ node ∈ _, _ → _))

theorem lines_of_mem_candidates {unit : SourceUnit} (h : unit.CoversConstructs)
    {candidate : Candidate} (hcandidate : candidate ∈ unit.candidates) :
    1 ≤ candidate.firstLine unit ∧
      candidate.firstLine unit ≤ candidate.lastLine unit ∧
      candidate.lastLine unit ≤ unit.buffer.size := by
  obtain ⟨hmem, htype⟩ := node_mem_preorder_of_mem_candidates hcandidate
  exact Candidate.lines_of_covers (h candidate.node hmem htype)

theorem one_le_first_of_mem_spans {unit : SourceUnit} {located : Located}
    (hlocate : unit.locate = .ok located) {span : Span} (hspan : span ∈ located.spans) :
    1 ≤ span.first := by
  obtain ⟨candidate, _, _, hfirst, _⟩ := exists_candidate_of_mem_spans hlocate hspan
  have hline := candidate.one_le_firstLine unit
  omega

theorem lines_of_mem_spans {unit : SourceUnit} (h : unit.CoversConstructs)
    {located : Located} (hlocate : unit.locate = .ok located) {span : Span}
    (hspan : span ∈ located.spans) :
    1 ≤ span.first ∧ span.first ≤ span.last ∧ span.last ≤ unit.buffer.size := by
  obtain ⟨candidate, hcandidate, _, hfirst, hlast⟩ :=
    exists_candidate_of_mem_spans hlocate hspan
  have hlines := lines_of_mem_candidates h hcandidate
  rw [hfirst, hlast]
  omega

end Syntax.SourceUnit

namespace Conversion

section MethodLines

variable {conversion : Conversion} {method : Span}

/-- Of a method with a body the lines from its first to its last are shown. -/
theorem getElem?_methodLines (hbody : method.hasBody = true) (hfirst : 1 ≤ method.first)
    (index : Nat) :
    (conversion.methodLines method)[index]? =
      if method.first + index ≤ method.last then
        conversion.buffer.line? (method.first + index)
      else none := by
  rw [methodLines, LineBuffer.methodLines, if_pos hbody]
  exact LineBuffer.getElem?_slice hfirst method.first_le_last index

theorem length_methodLines (hbody : method.hasBody = true) (hfirst : 1 ≤ method.first)
    (hlast : method.last ≤ conversion.buffer.size) :
    ((conversion.methodLines method).length : Int) = method.last - method.first + 1 := by
  rw [methodLines, LineBuffer.methodLines, if_pos hbody]
  exact LineBuffer.length_slice_of_lines hfirst method.first_le_last hlast

end MethodLines

/-- If all spans fit, a conversion reports only what locating did. -/
theorem diagnostics_ofLocated_of_fits {located : Located} {buffer : LineBuffer}
    (h : ∀ span ∈ located.spans, span.fits buffer.size) :
    (ofLocated located buffer).diagnostics = located.diagnostics := by
  have hnone : located.spans.filter (!·.fits buffer.size) = [] :=
    List.filter_eq_nil_iff.mpr fun span hspan => by simp [h span hspan]
  calc (ofLocated located buffer).diagnostics
      = located.diagnostics ++ (buffer.writeSpans located.spans).2 := rfl
    _ = located.diagnostics := by
        rw [LineBuffer.diagnostics_writeSpans, hnone, List.map_nil, List.append_nil]

end Conversion

/-- **No line is outside.**  A unit whose constructs cover bytes of the text is
located; every span lies within the lines of the text; the conversion reports no
line outside; and the lines of a method with a body are those from its first to
its last. -/
theorem convert_stays_within_lines {unit : SourceUnit} (h : unit.CoversConstructs) :
    ∃ located conversion, unit.locate = .ok located ∧
      unit.convert none = .ok conversion ∧
      (∀ span ∈ located.spans, 1 ≤ span.first ∧ span.first ≤ span.last ∧
        span.last ≤ (Text.splitLines unit.text).length) ∧
      (∀ kind first last line size,
        Diagnostic.outside kind first last line size ∉ conversion.diagnostics) ∧
      ∀ method ∈ conversion.methods,
        (method.hasBody = false → conversion.methodLines method = []) ∧
        (method.hasBody = true →
          ((conversion.methodLines method).length : Int) =
            method.last - method.first + 1 ∧
          ∀ index : Nat, method.first + index ≤ method.last →
            (conversion.methodLines method)[index]? =
              conversion.buffer.line? (method.first + index)) := by
  obtain ⟨located, hlocate⟩ : ∃ located, unit.locate = .ok located :=
    Syntax.SourceUnit.exists_locate_eq_ok fun candidate hcandidate =>
      (Syntax.SourceUnit.lines_of_mem_candidates h hcandidate).2.1
  have hlines : ∀ span ∈ located.spans,
      1 ≤ span.first ∧ span.first ≤ span.last ∧ span.last ≤ unit.buffer.size :=
    fun _ hspan => Syntax.SourceUnit.lines_of_mem_spans h hlocate hspan
  refine ⟨located, .ofLocated located unit.buffer, hlocate,
    Syntax.SourceUnit.convert_eq_ok hlocate none, hlines, ?_, ?_⟩
  · intro kind first last line size hmem
    rw [Conversion.diagnostics_ofLocated_of_fits fun span hspan =>
      Span.fits_of_lines (hlines span hspan).1 (hlines span hspan).2.2] at hmem
    obtain ⟨type, row, cause, hrendered⟩ :=
      Syntax.SourceUnit.unrendered_of_mem_diagnostics hlocate hmem
    cases hrendered
  · intro method hmethod
    obtain ⟨hfirst, _, hlast⟩ := hlines method (List.mem_filter.mp hmethod).1
    rw [← Conversion.size_ofLocated located unit.buffer] at hlast
    refine ⟨LineBuffer.methodLines_of_no_body, fun hbody => ?_⟩
    refine ⟨Conversion.length_methodLines hbody hfirst hlast, fun index hindex => ?_⟩
    rw [Conversion.getElem?_methodLines hbody hfirst, if_pos hindex]

/-- The text of an annotated method on one line, with its tree. -/
def oneLineMethod : SourceUnit :=
  { path := "Task.java"
    text := "class A\x7b\n@B void c()\x7b\x7d\x7d"
    root :=
      ⟨"class_declaration", 0, 23, true, false, none,
        [⟨"class", 0, 5, false, false, none, []⟩,
          ⟨"identifier", 6, 7, true, false, some "name", []⟩,
          ⟨"class_body", 7, 23, true, false, some "body",
            [⟨"method_declaration", 9, 22, true, false, none,
              [⟨"modifiers", 9, 11, true, false, none,
                  [⟨"marker_annotation", 9, 11, true, false, none, []⟩]⟩,
                ⟨"void_type", 12, 16, true, false, some "type", []⟩,
                ⟨"identifier", 17, 18, true, false, some "name", []⟩,
                ⟨"formal_parameters", 18, 20, true, false, some "parameters", []⟩,
                ⟨"block", 20, 22, true, false, some "body", []⟩]⟩]⟩]⟩ }

theorem convert_oneLineMethod :
    oneLineMethod.convert none = .ok
      ⟨⟨["class A ", "endprocedure"]⟩,
        [⟨.method ⟨"A", "c", "", "", true, true, false⟩, 2, 2, Int.le_refl 2⟩], []⟩ := by
  decide +kernel

/-- The one line of an annotated method is its header line and its last line. -/
theorem methodLines_oneLineMethod :
    oneLineMethod.CoversConstructs ∧
      ∃ conversion, oneLineMethod.convert none = .ok conversion ∧
        ∃ method ∈ conversion.methods, method.first = 2 ∧ method.last = 2 ∧
          conversion.methodLines method = ["endprocedure"] := by
  have hcovers : oneLineMethod.CoversConstructs := by decide +kernel
  obtain ⟨located, conversion, _, hconvert, _, _, hmethods⟩ :=
    convert_stays_within_lines hcovers
  obtain rfl := Except.ok.inj (hconvert.symm.trans convert_oneLineMethod)
  obtain ⟨hlength, hline⟩ := (hmethods _ List.mem_cons_self).2 rfl
  obtain ⟨line, hmethodLines⟩ := List.length_eq_one_iff.mp (Int.ofNat.inj hlength)
  have hfirst := hline 0 (Int.le_refl 2)
  refine ⟨hcovers, _, hconvert, _, List.mem_cons_self, rfl, rfl, ?_⟩
  rw [hmethodLines, List.getElem?_cons_zero] at hfirst
  rw [hmethodLines, Option.some.inj (hfirst.trans rfl)]

end JavaSketch
