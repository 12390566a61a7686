import JavaSketch.Failure
import JavaSketch.Text.Blank
import JavaSketch.Text.Line

/-!
# The lines of one file

A line buffer holds the lines of a file, counted from one as the lines of syntax
nodes are.  Lines can be replaced and never come or go, so a line number keeps
its meaning while a file changes.

**Results.**
* `contains_iff`, `line?_isSome`: which lines a buffer has.
* `size_replaceAt`, `line?_replaceAt`: a replacement changes one line.
-/

namespace JavaSketch

/-- The lines of one file. -/
structure LineBuffer where
  /-- The lines, the first of which has the number one. -/
  lines : List String
  deriving DecidableEq, Repr, Inhabited

namespace LineBuffer

/-- The lines of a text with any kind of line ends. -/
def ofText (text : String) : LineBuffer :=
  ⟨Text.splitLines (Text.normalizeNewlines text)⟩

/-- The number of lines. -/
def size (buffer : LineBuffer) : Nat :=
  buffer.lines.length

/-- Whether a buffer has a line of some number. -/
def contains (buffer : LineBuffer) (line : Int) : Bool :=
  1 ≤ line && line ≤ buffer.size

/-- A line, if the buffer has it. -/
def line? (buffer : LineBuffer) (line : Int) : Option String :=
  if 1 ≤ line then buffer.lines[(line - 1).toNat]? else none

/-- The failure to find a line. -/
def outside (buffer : LineBuffer) (line : Int) : Failure :=
  .lineOutside line buffer.size

/-- A line of the buffer. -/
def get (buffer : LineBuffer) (line : Int) : Except Failure String :=
  match buffer.line? line with
  | some text => .ok text
  | none => .error (buffer.outside line)

/-- The indentation of a line of the buffer. -/
def indentOf (buffer : LineBuffer) (line : Int) : Except Failure String :=
  (buffer.get line).map Text.indentation

/-- The buffer with one line made anew from its text; without that line, the
buffer as it is. -/
def replaceAt (buffer : LineBuffer) (line : Int) (renew : String → String) : LineBuffer :=
  if 1 ≤ line then ⟨buffer.lines.modify (line - 1).toNat renew⟩ else buffer

/-- The buffer with another text on one of its lines. -/
def replace (buffer : LineBuffer) (line : Int) (text : String) :
    Except Failure LineBuffer :=
  if buffer.contains line then .ok (buffer.replaceAt line fun _ => text)
  else .error (buffer.outside line)

/-- The place between lines that an index stands for: an index below zero counts
from the end, and one past either end stands for that end. -/
def boundary (buffer : LineBuffer) (index : Int) : Nat :=
  let fromStart := if index < 0 then index + buffer.size else index
  min fromStart.toNat buffer.size

/-- The lines between two places, which are counted from zero. -/
def slice (buffer : LineBuffer) (start stop : Int) : List String :=
  buffer.lines.extract (buffer.boundary start) (buffer.boundary stop)

theorem contains_iff {buffer : LineBuffer} {line : Int} :
    buffer.contains line ↔ 1 ≤ line ∧ line ≤ buffer.size := by
  simp [contains]

theorem line?_isSome {buffer : LineBuffer} {line : Int} :
    (buffer.line? line).isSome ↔ buffer.contains line := by
  rw [contains_iff]
  unfold line? size
  split
  · rw [isSome_getElem?]
    omega
  · simp [*]

theorem size_replaceAt (buffer : LineBuffer) (line : Int) (renew : String → String) :
    (buffer.replaceAt line renew).size = buffer.size := by
  unfold replaceAt size
  split <;> simp

theorem line?_replaceAt (buffer : LineBuffer) (line other : Int)
    (renew : String → String) :
    (buffer.replaceAt line renew).line? other =
      if line = other then (buffer.line? other).map renew else buffer.line? other := by
  unfold replaceAt line?
  by_cases hother : 1 ≤ other
  · by_cases hline : 1 ≤ line
    · simp only [hline, hother, if_true, List.getElem?_modify]
      by_cases h : line = other
      · simp [h]
      · have hne : (line - 1).toNat ≠ (other - 1).toNat := by omega
        simp only [hne, h, if_false]
        cases buffer.lines[(other - 1).toNat]? <;> rfl
    · have h : line ≠ other := by omega
      simp [hline, h]
  · simp only [hother, if_false]
    split <;> rfl

end LineBuffer

end JavaSketch
