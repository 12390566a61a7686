import JavaSketch.Proofs.Overwriting

/-!
# Spans in another order

Two spans that are written on different lines can be written in either order, and a
span that does not fit into the buffer can be written at any time, as it is only
reported.  So a list of spans may be reordered as long as any two spans that fit and
are written on a common line stay in their order.

**Invariant.**  A line only depends on the spans that are written on it.  Any two of
them meet there, so both lists have the same ones in the same order.

**Results.**
* `eq_of_perm_of_pairs`: a list is told by its members and the order of any two of them.
* `filter_writtenOn_eq`: the spans that are written on a line keep their order.
* `writeSpans_filter_fits`: spans that do not fit change nothing.
* `writeSpans_reordered`: what stays the same when spans are written in another order.
-/

namespace JavaSketch

section Pairs

variable {α : Type} [DecidableEq α]

/-- Where two things come in a list: the list without all others. -/
def occurrences (a b : α) (list : List α) : List α :=
  list.filter fun entry => entry = a ∨ entry = b

theorem occurrences_cons_of_eq {a b entry : α} (h : entry = a ∨ entry = b) (list : List α) :
    occurrences a b (entry :: list) = entry :: occurrences a b list :=
  List.filter_cons_of_pos (by simpa using h)

theorem occurrences_filter {a b : α} {p : α → Bool} (ha : p a) (hb : p b) (list : List α) :
    occurrences a b (list.filter p) = occurrences a b list := by
  rw [occurrences, occurrences, List.filter_filter]
  refine List.filter_congr fun entry _ => ?_
  by_cases h : entry = a ∨ entry = b
  · have hp : p entry := by rcases h with rfl | rfl <;> assumption
    simp [hp]
  · simp [h]

/-- A list is told by its members and the order of any two of them. -/
theorem eq_of_perm_of_pairs {first second : List α} (hperm : first.Perm second)
    (h : ∀ a ∈ first, ∀ b ∈ first, occurrences a b first = occurrences a b second) :
    first = second := by
  induction first generalizing second with
  | nil => exact hperm.nil_eq
  | cons a rest ih =>
      cases second with
      | nil => exact absurd hperm.length_eq (by simp)
      | cons b others =>
          have hb : b ∈ a :: rest := hperm.mem_iff.mpr List.mem_cons_self
          have hheads := h a List.mem_cons_self b hb
          rw [occurrences_cons_of_eq (Or.inl rfl), occurrences_cons_of_eq (Or.inr rfl)]
            at hheads
          obtain rfl : a = b := (List.cons.inj hheads).1
          refine congrArg (a :: ·) (ih (List.Perm.cons_inv hperm) fun c hc d hd => ?_)
          have hpair := h c (List.mem_cons_of_mem a hc) d (List.mem_cons_of_mem a hd)
          by_cases hentry : a = c ∨ a = d
          · rw [occurrences_cons_of_eq hentry, occurrences_cons_of_eq hentry] at hpair
            exact (List.cons.inj hpair).2
          · simpa [occurrences, hentry] using hpair

end Pairs

namespace Span

/-- Whether two spans fit into a buffer of some size and are written on a common line. -/
def MeetsIn (size : Nat) (span other : Span) : Prop :=
  span.fits size ∧ other.fits size ∧ ∃ line ∈ span.touched, line ∈ other.touched

instance (size : Nat) (span other : Span) : Decidable (span.MeetsIn size other) :=
  inferInstanceAs (Decidable (_ ∧ _ ∧ ∃ line ∈ _, _))

/-- Whether a list has the spans of another in an order that is the same for any two
that meet in a buffer of some size. -/
structure Reorders (size : Nat) (first second : List Span) : Prop where
  perm : first.Perm second
  order : ∀ span ∈ first, ∀ other ∈ first, span.MeetsIn size other →
    occurrences span other first = occurrences span other second

/-- Whether a span is written on a line of a buffer of some size. -/
def writtenOn (size : Nat) (line : Int) (span : Span) : Bool :=
  span.fits size && span.touched.contains line

theorem map_fst_writes (span : Span) : span.writes.map Prod.fst = span.touched := by
  unfold writes touched
  cases span.construct.footer <;> rfl

theorem filter_writes_of_not_mem_touched {span : Span} {line : Int}
    (h : line ∉ span.touched) : span.writes.filter (·.1 == line) = [] := by
  refine List.filter_eq_nil_iff.mpr fun write hwrite heq => h ?_
  rw [← map_fst_writes, ← eq_of_beq heq]
  exact List.mem_map_of_mem hwrite

/-- Only the spans that are written on a line put texts there. -/
theorem textsOn_filter_writtenOn (size : Nat) (spans : List Span) (line : Int) :
    textsOn size (spans.filter (writtenOn size line)) line = textsOn size spans line := by
  induction spans with
  | nil => rfl
  | cons span rest ih =>
      cases hfits : span.fits size with
      | false =>
          have hnot : writtenOn size line span = false := by simp [writtenOn, hfits]
          rw [List.filter_cons_of_neg (by simp [hnot]), ih, textsOn_cons_of_not_fits hfits]
      | true =>
          by_cases hline : line ∈ span.touched
          · have hwritten : writtenOn size line span := by simp [writtenOn, hfits, hline]
            rw [List.filter_cons_of_pos hwritten, textsOn_cons_of_fits hfits,
              textsOn_cons_of_fits hfits, ih]
          · have hnot : writtenOn size line span = false := by simp [writtenOn, hline]
            rw [List.filter_cons_of_neg (by simp [hnot]), ih, textsOn_cons_of_fits hfits,
              filter_writes_of_not_mem_touched hline]
            rfl

/-- Two spans that are written on one line meet there. -/
theorem meetsIn_of_writtenOn {size : Nat} {line : Int} {span other : Span}
    (h : span.writtenOn size line) (h' : other.writtenOn size line) :
    span.MeetsIn size other := by
  simp only [writtenOn, Bool.and_eq_true, List.contains_iff_mem] at h h'
  exact ⟨h.1, h'.1, line, h.2, h'.2⟩

namespace Reorders

variable {size : Nat} {first second : List Span}

/-- The spans that are written on a line keep their order. -/
theorem filter_writtenOn_eq (h : Reorders size first second) (line : Int) :
    first.filter (writtenOn size line) = second.filter (writtenOn size line) := by
  refine eq_of_perm_of_pairs (h.perm.filter _) fun span hspan other hother => ?_
  obtain ⟨hspan, hwritten⟩ := List.mem_filter.mp hspan
  obtain ⟨hother, hwritten'⟩ := List.mem_filter.mp hother
  rw [occurrences_filter hwritten hwritten', occurrences_filter hwritten hwritten']
  exact h.order span hspan other hother (meetsIn_of_writtenOn hwritten hwritten')

theorem textsOn_eq (h : Reorders size first second) (line : Int) :
    textsOn size first line = textsOn size second line := by
  rw [← textsOn_filter_writtenOn, h.filter_writtenOn_eq, textsOn_filter_writtenOn]

end Reorders

theorem textsOn_eq_nil {size : Nat} {spans : List Span} {line : Int}
    (h : ∀ span ∈ spans, span.fits size → line ∉ span.touched) :
    textsOn size spans line = [] := by
  have hnone : spans.filter (writtenOn size line) = [] := by
    refine List.filter_eq_nil_iff.mpr fun span hspan hwritten => ?_
    simp only [writtenOn, Bool.and_eq_true, List.contains_iff_mem] at hwritten
    exact h span hspan hwritten.1 hwritten.2
  rw [← textsOn_filter_writtenOn, hnone, textsOn_nil]

end Span

namespace LineBuffer

/-- Buffers that have the same lines are equal. -/
theorem eq_of_line?_eq {buffer other : LineBuffer}
    (h : ∀ line, buffer.line? line = other.line? line) : buffer = other := by
  obtain ⟨lines⟩ := buffer
  obtain ⟨others⟩ := other
  refine congrArg LineBuffer.mk (List.ext_getElem? fun index => ?_)
  have hpos : (1 : Int) ≤ index + 1 := by omega
  simpa [line?, hpos] using h (index + 1)

/-- Buffers of one size become equal if the same texts reach each of their lines. -/
theorem writeSpans_congr (buffer : LineBuffer) {first second : List Span}
    (h : ∀ line, Span.textsOn buffer.size first line = Span.textsOn buffer.size second line) :
    (buffer.writeSpans first).1 = (buffer.writeSpans second).1 :=
  eq_of_line?_eq fun line => by rw [line?_writeSpans, line?_writeSpans, h line]

/-- Spans that do not fit change nothing. -/
theorem writeSpans_filter_fits (buffer : LineBuffer) (spans : List Span) :
    buffer.writeSpans (spans.filter (·.fits buffer.size)) =
      ((buffer.writeSpans spans).1, []) := by
  refine Prod.ext (buffer.writeSpans_congr fun line => ?_) ?_
  · simp [Span.textsOn, List.filter_filter]
  · rw [diagnostics_writeSpans, List.filter_filter]
    simp

/-- **Spans in another order.**  Let the spans of a list be written in another order that
is the same for any two spans that fit into the buffer and are written on a common line.
Then every line becomes the same, and the same spans are reported.  No line comes or goes,
and lines on which no span that fits is written stay as they are.  The reports are those on
the spans that do not fit, one for each; such a span leaves a buffer as it is, and writing
the spans without them gives the same lines. -/
theorem writeSpans_reordered (buffer : LineBuffer) {first second : List Span}
    (h : Span.Reorders buffer.size first second) :
    (buffer.writeSpans first).1 = (buffer.writeSpans second).1 ∧
      (buffer.writeSpans first).1.size = buffer.size ∧
      (∀ line, (∀ span ∈ first, span.fits buffer.size → line ∉ span.touched) →
        (buffer.writeSpans first).1.line? line = buffer.line? line) ∧
      (buffer.writeSpans first).2.Perm (buffer.writeSpans second).2 ∧
      (buffer.writeSpans first).2 =
        (first.filter (!·.fits buffer.size)).map (·.outsideDiagnostic buffer.size) ∧
      (∀ current : LineBuffer, current.size = buffer.size → ∀ span : Span,
        span.fits buffer.size = false →
          current.writeSpan span = (current, some (span.outsideDiagnostic buffer.size))) ∧
      buffer.writeSpans (first.filter (·.fits buffer.size)) =
        ((buffer.writeSpans first).1, []) := by
  refine ⟨buffer.writeSpans_congr h.textsOn_eq, buffer.size_writeSpans first, ?_, ?_,
    buffer.diagnostics_writeSpans first, ?_, buffer.writeSpans_filter_fits first⟩
  · intro line hline
    rw [line?_writeSpans, Span.textsOn_eq_nil hline]
    exact Option.map_id'
  · rw [diagnostics_writeSpans, diagnostics_writeSpans]
    exact (h.perm.filter _).map _
  · intro current hsize span hfits
    rw [writeSpan_eq, hsize, hfits]
    rfl

end LineBuffer

/-- The lines of a conditional with a loop on its last line, and of a method after it. -/
def crowdedLines : LineBuffer :=
  ⟨["  if (a) \x7b", "  \x7d for (T x : xs) \x7b", "\x7d", "\tvoid f();"]⟩

/-- A conditional and a loop that meet on line 2, a switch and a method that meet on
line 4, and a conditional that starts above the first line. -/
def crowdedSpans : List Span :=
  [⟨.conditional "a", 1, 2, by decide⟩, ⟨.forEachLoop "x" "xs", 2, 3, by decide⟩,
    ⟨.switchBlock "s", 4, 4, by decide⟩,
    ⟨.method ⟨"A", "f", "", "", true, false, true⟩, 4, 9, by decide⟩,
    ⟨.conditional "b", 0, 4, by decide⟩]

/-- The same spans with those of line 4 before those of line 2. -/
def swappedSpans : List Span :=
  [⟨.conditional "b", 0, 4, by decide⟩, ⟨.switchBlock "s", 4, 4, by decide⟩,
    ⟨.conditional "a", 1, 2, by decide⟩,
    ⟨.method ⟨"A", "f", "", "", true, false, true⟩, 4, 9, by decide⟩,
    ⟨.forEachLoop "x" "xs", 2, 3, by decide⟩]

/-- Written in either order, the spans give the same lines and the same report. -/
theorem writeSpans_crowdedLines :
    Span.Reorders crowdedLines.size crowdedSpans swappedSpans ∧
      (crowdedLines.writeSpans swappedSpans).1 =
        ⟨["  if a then", "  for x in xs", "next x", "\tprocedure f()"]⟩ ∧
      (crowdedLines.writeSpans crowdedSpans).2 = [.outside .conditional 0 4 0 4] := by
  have hreorders : Span.Reorders crowdedLines.size crowdedSpans swappedSpans :=
    ⟨by decide, by decide⟩
  obtain ⟨hlines, _, _, _, hreports, _⟩ := LineBuffer.writeSpans_reordered crowdedLines hreorders
  refine ⟨hreorders, ?_, ?_⟩
  · rw [← hlines]
    decide +kernel
  · rw [hreports]
    decide +kernel

end JavaSketch
