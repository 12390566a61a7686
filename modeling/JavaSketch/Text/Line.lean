import JavaSketch.Text.Split

/-!
# Lines of a source text

A text is first brought to one kind of line end, then cut into lines.  Line
`n` of a text is the `n`-th piece between line feeds; a line feed at the very
end closes the last line and opens no further one.

**Results.**
* `carriageReturn_not_mem_normalizeChars`: a normalised text holds no carriage
  return.
* `normalizeChars_normalizeChars`: normalising twice is normalising once.
-/

namespace JavaSketch
namespace Text

/-- Turns each CR LF pair, and each CR that stands alone, into one LF. -/
def normalizeChars : List Char → List Char
  | [] => []
  | '\r' :: '\n' :: cs => '\n' :: normalizeChars cs
  | c :: cs => (if c = '\r' then '\n' else c) :: normalizeChars cs

/-- The text with LF as its only line end. -/
def normalizeNewlines (text : String) : String :=
  String.ofList (normalizeChars text.toList)

/-- The lines of a text whose only line end is LF. -/
def lineChars (cs : List Char) : List (List Char) :=
  let all := pieces '\n' cs
  if all.getLast? = some [] then all.dropLast else all

/-- The lines of a text whose only line end is LF; the empty text has none. -/
def splitLines (text : String) : List String :=
  (lineChars text.toList).map String.ofList

theorem carriageReturn_not_mem_normalizeChars (cs : List Char) :
    '\r' ∉ normalizeChars cs := by
  fun_induction normalizeChars cs with
  | case1 => simp
  | case2 cs ih => simp [ih]
  | case3 c cs _ ih =>
      by_cases h : c = '\r'
      · simp [h, ih]
      · simp [h, ih, Ne.symm h]

theorem normalizeChars_of_not_mem {cs : List Char} (h : '\r' ∉ cs) :
    normalizeChars cs = cs := by
  fun_induction normalizeChars cs with
  | case1 => rfl
  | case2 cs ih => simp at h
  | case3 c cs _ ih =>
      simp only [List.mem_cons, not_or] at h
      simp [ih h.2, Ne.symm h.1]

theorem normalizeChars_normalizeChars (cs : List Char) :
    normalizeChars (normalizeChars cs) = normalizeChars cs :=
  normalizeChars_of_not_mem (carriageReturn_not_mem_normalizeChars cs)

end Text
end JavaSketch
