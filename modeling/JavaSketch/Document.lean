import JavaSketch.Failure

/-!
# Documents

A document has one heading and, below it, paragraphs.  It holds only characters that
XML knows: a text with any other is refused, and a carriage return in a text becomes
a line break.

A label with lines is shown as a document with the label as its heading and one
paragraph for each line.  Some characters are left out of the lines; the label is
given to the document as it is.

**Results.**
* `isForbidden_of_mem_stripped`: no stripped line holds a forbidden character.
* `ofLines_eq`: a document is refused for its label or not at all.
-/

namespace JavaSketch

/-- A document as it reads back, with LF for every line break inside it. -/
structure Document where
  /-- The text of the heading. -/
  heading : String
  /-- The texts of the paragraphs. -/
  paragraphs : List String
  deriving DecidableEq, Repr, Inhabited

namespace Document

/-! ## What a document holds -/

/-- Whether XML has no way to write a character. -/
def isForbidden (c : Char) : Bool :=
  let n := c.toNat
  n ≤ 0x08 || n == 0x0B || n == 0x0C || (0x0E ≤ n && n ≤ 0x1F) || n == 0xFFFE || n == 0xFFFF

/-- A text with every carriage return as a line break. -/
def brokenText (text : String) : String :=
  String.ofList (text.toList.map fun c => if c = '\r' then '\n' else c)

/-- A text as a document holds it, unless XML cannot write it. -/
def held (text : String) : Except Failure String :=
  if text.toList.any isForbidden then .error .unprintableText
  else .ok (brokenText text)

/-- A document with a heading and nothing below it. -/
def ofHeading (text : String) : Except Failure Document := do
  return { heading := ← held text, paragraphs := [] }

/-- A document with one more paragraph. -/
def addParagraph (document : Document) (text : String) : Except Failure Document := do
  let paragraph ← held text
  return { document with paragraphs := document.paragraphs ++ [paragraph] }

/-! ## The document of a label and lines -/

/-- Whether a character is left out of a line. -/
def isStripped (c : Char) : Bool :=
  let n := c.toNat
  n ≤ 0x08 || (0x0B ≤ n && n ≤ 0x1F) || n == 0xFFFE || n == 0xFFFF

/-- A line without the characters that are left out. -/
def strip (line : String) : String :=
  String.ofList (line.toList.filter (!isStripped ·))

/-- The document of a label and lines. -/
def ofLines (label : String) (lines : List String) : Except Failure Document := do
  let document ← ofHeading label
  lines.foldlM (fun document line => document.addParagraph (strip line)) document

theorem isStripped_of_isForbidden {c : Char} (h : isForbidden c) : isStripped c := by
  simp only [isForbidden, isStripped, Bool.or_eq_true, Bool.and_eq_true, decide_eq_true_eq,
    beq_iff_eq] at h ⊢
  omega

theorem mem_strip {c : Char} {line : String} :
    c ∈ (strip line).toList ↔ c ∈ line.toList ∧ isStripped c = false := by
  simp [strip]

theorem isForbidden_of_mem_stripped {c : Char} {line : String}
    (h : c ∈ (strip line).toList) : isForbidden c = false := by
  have hkept := (mem_strip.mp h).2
  cases hforbidden : isForbidden c with
  | false => rfl
  | true => exact absurd (isStripped_of_isForbidden hforbidden) (by simp [hkept])

/-- A stripped line is held as it is: nothing in it is refused, nothing is broken. -/
theorem held_strip (line : String) : held (strip line) = .ok (strip line) := by
  have hnone : (strip line).toList.any isForbidden = false :=
    List.any_eq_false.mpr fun c hc => by simp [isForbidden_of_mem_stripped hc]
  have hbroken : (strip line).toList.map (fun c => if c = '\r' then '\n' else c) =
      (strip line).toList := by
    refine (List.map_congr_left fun c hc => if_neg ?_).trans (List.map_id _)
    rintro rfl
    exact absurd (mem_strip.mp hc).2 (by decide)
  rw [held, hnone, if_neg Bool.false_ne_true, brokenText, hbroken, String.ofList_toList]

theorem foldlM_addParagraph (document : Document) (lines : List String) :
    lines.foldlM (fun document line => document.addParagraph (strip line)) document =
      .ok { document with paragraphs := document.paragraphs ++ lines.map strip } := by
  induction lines generalizing document with
  | nil => simp [pure, Except.pure]
  | cons line lines ih =>
      rw [List.foldlM_cons, addParagraph, held_strip]
      exact (ih _).trans (by simp)

/-- A document is refused for its label or not at all. -/
theorem ofLines_eq (label : String) (lines : List String) :
    ofLines label lines = (held label).map fun heading => ⟨heading, lines.map strip⟩ := by
  cases hheld : held label with
  | error failure => simp [ofLines, ofHeading, hheld, bind, Except.bind, Except.map]
  | ok heading =>
      simp only [ofLines, ofHeading, hheld, bind, Except.bind, pure, Except.pure, Except.map]
      rw [foldlM_addParagraph, List.nil_append]

end Document

end JavaSketch
