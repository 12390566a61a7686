import JavaSketch.Proofs.LineFeeds
import Mathlib.Algebra.GroupWithZero.Nat

/-!
# Lines and byte offsets

The line of a byte offset is found by counting line feed bytes, a line of a buffer
by cutting characters.  Both name the same line: it begins where the lines before it
end, each with its line feed, and the offset is inside it or on its line feed.

**Invariant.**  For every offset up to the end of a text, the piece with as many
pieces before it as there are line feed bytes before the offset reaches up to the
offset (`liesIn_count`).  The induction takes one character after the other; it
moves the offset by the bytes of the character and the piece by one at a line feed.

**Results.**
* `normalizeChars_eq_map`: normalising replaces pairs first and single returns after.
* `joinWith_lineChars`: the lines, and the line feed at the end, make up the text.
* `lineAt_is_line_of_buffer`: the line of an offset is that line of the buffer.
-/

namespace JavaSketch

open Syntax (SourceUnit)

namespace Text

section Normalizing

/-- Makes each CR LF pair one LF and leaves all else. -/
def replacePairs : List Char → List Char
  | [] => []
  | '\r' :: '\n' :: cs => '\n' :: replacePairs cs
  | c :: cs => c :: replacePairs cs

/-- Makes a CR an LF. -/
def replaceReturn (c : Char) : Char :=
  if c = '\r' then '\n' else c

theorem normalizeChars_eq_map (cs : List Char) :
    normalizeChars cs = (replacePairs cs).map replaceReturn := by
  fun_induction normalizeChars cs with
  | case1 => rfl
  | case2 cs ih => simp [replacePairs, replaceReturn, ih]
  | case3 c cs hpair ih =>
      rw [replacePairs.eq_3 c cs hpair, List.map_cons, ih, replaceReturn]

theorem normalizeNewlines_normalizeNewlines (text : String) :
    normalizeNewlines (normalizeNewlines text) = normalizeNewlines text := by
  simp [normalizeNewlines, normalizeChars_normalizeChars]

theorem carriageReturn_not_mem_normalizeNewlines (text : String) :
    '\r' ∉ (normalizeNewlines text).toList := by
  simpa [normalizeNewlines] using carriageReturn_not_mem_normalizeChars text.toList

end Normalizing

section Lines

/-- A text is its lines and the line feed it may end with. -/
theorem joinWith_lineChars (cs : List Char) :
    joinWith '\n' (lineChars cs) ++ (if cs.getLast? = some '\n' then ['\n'] else []) = cs := by
  rcases List.eq_nil_or_concat cs with rfl | ⟨front, last, rfl⟩
  · rfl
  · rw [List.concat_eq_append, List.getLast?_concat]
    by_cases hfeed : last = '\n'
    · subst hfeed
      simp [lineChars, pieces_concat_self, joinWith_pieces]
    · have hlast := getLast?_pieces_concat_of_ne hfeed front
      simp [lineChars, hlast, hfeed, joinWith_pieces]

theorem lineChars_prefix_pieces (cs : List Char) : lineChars cs <+: pieces '\n' cs := by
  simp only [lineChars]
  split
  · exact List.dropLast_prefix _
  · exact List.prefix_refl _

theorem mem_of_mem_splitLines {text line : String} (h : line ∈ splitLines text) {c : Char}
    (hc : c ∈ line.toList) : c ∈ text.toList := by
  obtain ⟨piece, hpiece, rfl⟩ := List.mem_map.mp h
  rw [String.toList_ofList] at hc
  exact (mem_of_mem_pieces ((lineChars_prefix_pieces _).subset hpiece) hc).1

end Lines

section Offsets

/-- The bytes of some characters. -/
def encode (cs : List Char) : List UInt8 :=
  cs.flatMap String.utf8EncodeChar

/-- The bytes before a piece, counted from zero, with one separator after each piece. -/
def pieceStart (all : List (List Char)) (index : Nat) : Nat :=
  ((all.take index).map fun piece => (encode piece).length + 1).sum

@[simp] theorem pieceStart_zero (all : List (List Char)) : pieceStart all 0 = 0 := by
  simp [pieceStart]

@[simp] theorem pieceStart_cons_succ (piece : List Char) (rest : List (List Char))
    (index : Nat) : pieceStart (piece :: rest) (index + 1) =
      (encode piece).length + 1 + pieceStart rest index := by
  simp [pieceStart]

/-- Whether an offset is inside a piece or right after it. -/
def LiesIn (all : List (List Char)) (index offset : Nat) : Prop :=
  ∃ piece, all[index]? = some piece ∧ pieceStart all index ≤ offset ∧
    offset ≤ pieceStart all index + (encode piece).length

theorem liesIn_first {first : List Char} {rest : List (List Char)} {offset : Nat}
    (h : offset ≤ (encode first).length) : LiesIn (first :: rest) 0 offset :=
  ⟨first, rfl, by simp, by simpa using h⟩

theorem LiesIn.after_lineFeed {all : List (List Char)} {index offset : Nat}
    (h : LiesIn all index offset) : LiesIn ([] :: all) (index + 1) (offset + 1) := by
  obtain ⟨piece, hpiece, hlow, hhigh⟩ := h
  have hempty : (encode []).length = 0 := rfl
  refine ⟨piece, hpiece, ?_, ?_⟩ <;> rw [pieceStart_cons_succ, hempty] <;> omega

theorem LiesIn.after_character {first : List Char} {rest : List (List Char)}
    {index offset : Nat} (h : LiesIn (first :: rest) index offset) (c : Char) :
    LiesIn ((c :: first) :: rest) index ((String.utf8EncodeChar c).length + offset) := by
  obtain ⟨piece, hpiece, hlow, hhigh⟩ := h
  have hfirst : (encode (c :: first)).length =
      (String.utf8EncodeChar c).length + (encode first).length := by
    simp [encode]
  cases index with
  | zero =>
      obtain rfl : first = piece := by simpa using hpiece
      rw [pieceStart_zero, Nat.zero_add] at hhigh
      refine liesIn_first ?_
      omega
  | succ index =>
      rw [pieceStart_cons_succ] at hlow hhigh
      refine ⟨piece, hpiece, ?_, ?_⟩ <;> rw [pieceStart_cons_succ, hfirst] <;> omega

theorem LiesIn.among_first {early all : List (List Char)} {index offset : Nat}
    (h : LiesIn all index offset) (hearly : early <+: all) (hindex : index < early.length) :
    LiesIn early index offset := by
  obtain ⟨piece, hpiece, hbounds⟩ := h
  obtain ⟨rest, rfl⟩ := hearly
  have hstart : pieceStart (early ++ rest) index = pieceStart early index := by
    rw [pieceStart, List.take_append_of_le_length (Nat.le_of_lt hindex), pieceStart]
  rw [hstart] at hbounds
  rw [List.getElem?_append_left hindex] at hpiece
  exact ⟨piece, hpiece, hbounds⟩

/-- An offset lies in the piece that comes after as many pieces as there are line feed
bytes before the offset. -/
theorem liesIn_count {cs : List Char} {offset : Nat} (h : offset ≤ (encode cs).length) :
    LiesIn (pieces '\n' cs) (((encode cs).take offset).count 0x0A) offset := by
  induction cs generalizing offset with
  | nil =>
      have hcount : ((encode []).take offset).count 0x0A = 0 := by simp [encode]
      rw [hcount]
      exact liesIn_first h
  | cons c cs ih =>
      have hcons : encode (c :: cs) = String.utf8EncodeChar c ++ encode cs := List.flatMap_cons
      rw [hcons, List.length_append] at h
      rw [hcons]
      by_cases hfeed : c = '\n'
      · subst hfeed
        have hbytes : String.utf8EncodeChar '\n' = [0x0A] := by decide
        rw [hbytes, List.length_singleton] at h
        rw [hbytes, pieces_cons_self]
        cases offset with
        | zero => exact liesIn_first (Nat.zero_le _)
        | succ offset =>
            rw [List.singleton_append, List.take_succ_cons, List.count_cons_self]
            exact (ih (by omega)).after_lineFeed
      · obtain ⟨first, rest, hcs, hpieces⟩ := pieces_cons_of_ne hfeed cs
        have hnone : 0x0A ∉ String.utf8EncodeChar c := fun hmem =>
          hfeed (eq_lineFeed_of_mem_utf8EncodeChar hmem)
        rw [hpieces]
        rcases Nat.le_total offset (String.utf8EncodeChar c).length with hinside | hafter
        · have hcount : ((String.utf8EncodeChar c).take offset).count 0x0A = 0 :=
            List.count_eq_zero_of_not_mem fun hmem => hnone (List.mem_of_mem_take hmem)
          rw [List.take_append_of_le_length hinside, hcount]
          refine liesIn_first ?_
          rw [encode, List.flatMap_cons, List.length_append]
          omega
        · obtain ⟨beyond, rfl⟩ := Nat.exists_eq_add_of_le hafter
          rw [List.take_length_add_append, List.count_append,
            List.count_eq_zero_of_not_mem hnone, Nat.zero_add]
          have hlies := ih (show beyond ≤ (encode cs).length by omega)
          rw [hcs] at hlies
          exact hlies.after_character c

theorem utf8ByteSize_ofList (cs : List Char) :
    (String.ofList cs).utf8ByteSize = (encode cs).length := by
  have hbytes := congrArg List.length (toList_toUTF8 (String.ofList cs))
  rwa [Array.length_toList, String.toList_ofList] at hbytes

end Offsets

end Text

namespace LineBuffer

/-- The byte offset at which a line begins in the text of the lines, each with a line
feed after it. -/
def startOf (buffer : LineBuffer) (line : Nat) : Nat :=
  ((buffer.lines.take (line - 1)).map fun text => text.utf8ByteSize + 1).sum

end LineBuffer

namespace Syntax.SourceUnit

open Text

theorem bytes_eq_encode (unit : SourceUnit) :
    unit.bytes.data.toList = encode unit.text.toList :=
  toList_toUTF8 unit.text

theorem join_lines_buffer (unit : SourceUnit) :
    join "\n" unit.buffer.lines ++
      (if unit.text.toList.getLast? = some '\n' then "\n" else "") = unit.text := by
  have hjoin := toList_join_singleton '\n' unit.buffer.lines
  have hlines : unit.buffer.lines.map String.toList = lineChars unit.text.toList := by
    simp [buffer, splitLines, Function.comp_def]
  have hlast : (if unit.text.toList.getLast? = some '\n' then "\n" else "").toList =
      if unit.text.toList.getLast? = some '\n' then ['\n'] else [] := by
    split <;> rfl
  rw [hlines] at hjoin
  rw [← String.toList_inj, String.toList_append, hlast]
  exact (congrArg (· ++ _) hjoin).trans (joinWith_lineChars unit.text.toList)

theorem startOf_buffer (unit : SourceUnit) (line : Nat) :
    unit.buffer.startOf line = pieceStart (lineChars unit.text.toList) (line - 1) := by
  simp [LineBuffer.startOf, buffer, splitLines, pieceStart, ← List.map_take,
    Function.comp_def, utf8ByteSize_ofList]

/-- An offset within the text is on a line of the text, by number and by bytes. -/
theorem line?_lineAt {unit : SourceUnit} {offset : Nat} (h : offset < unit.bytes.size) :
    1 ≤ unit.lineAt offset ∧ unit.lineAt offset ≤ unit.buffer.size ∧
      ∃ line, unit.buffer.line? (unit.lineAt offset) = some line ∧
        unit.buffer.startOf (unit.lineAt offset) ≤ offset ∧
        offset ≤ unit.buffer.startOf (unit.lineAt offset) + line.utf8ByteSize := by
  have hsize : unit.lineAt offset ≤ unit.buffer.size := by
    rw [size_buffer_eq_lineAt (by omega)]
    exact unit.lineAt_mono (by omega)
  refine ⟨unit.lineAt_pos offset, hsize, ?_⟩
  have hlength : unit.bytes.size = (encode unit.text.toList).length := by
    rw [← bytes_eq_encode, length_bytes]
  have hline := unit.lineAt_eq offset
  rw [bytes_eq_encode] at hline
  have hlies : LiesIn (lineChars unit.text.toList) (unit.lineAt offset - 1) offset := by
    rw [hline, Nat.add_sub_cancel]
    refine (liesIn_count (by omega)).among_first (lineChars_prefix_pieces _) ?_
    rw [buffer, LineBuffer.size, splitLines, List.length_map] at hsize
    omega
  obtain ⟨piece, hpiece, hlow, hhigh⟩ := hlies
  rw [← unit.startOf_buffer] at hlow hhigh
  refine ⟨String.ofList piece, ?_, hlow, ?_⟩
  · have hpos : (1 : Int) ≤ unit.lineAt offset := by
      have := unit.lineAt_pos offset
      omega
    have hindex : ((unit.lineAt offset : Int) - 1).toNat = unit.lineAt offset - 1 := by omega
    rw [LineBuffer.line?, if_pos hpos, hindex, buffer, splitLines, List.getElem?_map, hpiece]
    rfl
  · rwa [utf8ByteSize_ofList]

end Syntax.SourceUnit

/-- **The line of an offset is that line of the buffer.**  Let a unit have the text
that is made of some text by replacing each CR LF pair by an LF and then each CR that
is left.  Doing so again changes nothing, and the lines of the buffer of the text have
no line end in them and are, joined, the text of the unit without the line feed at its
end.  Every byte offset within the text is on a line of the buffer: it is at or after
the offset at which the line begins, and not after the line feed of the line. -/
theorem lineAt_is_line_of_buffer {unit : SourceUnit} {text : String}
    (h : unit.text = Text.normalizeNewlines text) :
    unit.text.toList = (Text.replacePairs text.toList).map Text.replaceReturn ∧
      Text.normalizeNewlines unit.text = unit.text ∧
      (∀ line ∈ (LineBuffer.ofText text).lines,
        '\r' ∉ line.toList ∧ '\n' ∉ line.toList) ∧
      Text.join "\n" (LineBuffer.ofText text).lines ++
        (if unit.text.toList.getLast? = some '\n' then "\n" else "") = unit.text ∧
      ∀ offset < unit.text.utf8ByteSize,
        1 ≤ unit.lineAt offset ∧ unit.lineAt offset ≤ (LineBuffer.ofText text).size ∧
          ∃ line, (LineBuffer.ofText text).line? (unit.lineAt offset) = some line ∧
            (LineBuffer.ofText text).startOf (unit.lineAt offset) ≤ offset ∧
            offset ≤ (LineBuffer.ofText text).startOf (unit.lineAt offset) +
              line.utf8ByteSize := by
  have hbuffer : LineBuffer.ofText text = unit.buffer := by
    rw [LineBuffer.ofText, Syntax.SourceUnit.buffer, h]
  rw [hbuffer]
  refine ⟨?_, ?_, ?_, unit.join_lines_buffer, fun offset hoffset =>
    Syntax.SourceUnit.line?_lineAt hoffset⟩
  · rw [h, Text.normalizeNewlines, String.toList_ofList, Text.normalizeChars_eq_map]
  · rw [h, Text.normalizeNewlines_normalizeNewlines]
  · intro line hline
    refine ⟨fun hreturn => ?_, Text.lineFeed_not_mem_of_mem_splitLines hline⟩
    have hmem := Text.mem_of_mem_splitLines hline hreturn
    rw [h] at hmem
    exact Text.carriageReturn_not_mem_normalizeNewlines text hmem

/-- A text with three kinds of line ends, one of them at its end, and a character of
two bytes. -/
def mixedLineEnds : SourceUnit :=
  { path := "Mixed.java"
    text := Text.normalizeNewlines "a\r\r\n\u00e9b\r\n\n;\r"
    root := ⟨"program", 0, 0, true, false, none, []⟩ }

/-- The second byte of the character is on the third line, which begins with it. -/
theorem line?_mixedLineEnds :
    mixedLineEnds.text = "a\n\n\u00e9b\n\n;\n" ∧ 4 < mixedLineEnds.text.utf8ByteSize ∧
      mixedLineEnds.lineAt 4 = 3 ∧
      ∃ line, (LineBuffer.ofText "a\r\r\n\u00e9b\r\n\n;\r").line? 3 = some line ∧
        (LineBuffer.ofText "a\r\r\n\u00e9b\r\n\n;\r").startOf 3 ≤ 4 ∧
        4 ≤ (LineBuffer.ofText "a\r\r\n\u00e9b\r\n\n;\r").startOf 3 + line.utf8ByteSize := by
  have hsize : 4 < mixedLineEnds.text.utf8ByteSize := by decide
  have hline : mixedLineEnds.lineAt 4 = 3 := by decide
  obtain ⟨_, _, _, _, hoffsets⟩ := lineAt_is_line_of_buffer (rfl : mixedLineEnds.text = _)
  obtain ⟨_, _, hfound⟩ := hoffsets 4 hsize
  rw [hline] at hfound
  exact ⟨by decide, hsize, hline, hfound⟩

end JavaSketch
