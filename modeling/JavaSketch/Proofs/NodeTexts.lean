import JavaSketch.Proofs.Decoding
import JavaSketch.Proofs.LineOffsets

/-!
# The text of a range of bytes

The ends of a node are byte offsets, and nothing says that they are between characters, in
order or within the text.  The text of the node is read from the bytes between them.

**Invariant.**  The text is taken one character after the other, with the offset at which the
character begins.  Of a character that ends after the range at most a beginning is left, and
of one that begins before the range only later bytes; neither is read.  All others keep their
bytes in a row and are read.

**Results.**
* `decoded_drop_take_encode`: the characters read from the bytes of a range.
* `exists_split`: those characters are next to each other.
* `nodeText_is_run_of_characters`: the text of a node for any two offsets.
-/

namespace JavaSketch

namespace Text

open String (utf8EncodeChar)

section Offsets

/-- Some characters with the offsets at which they begin, the first one at `offset`. -/
def withOffsets (offset : Nat) : List Char → List (Nat × Char)
  | [] => []
  | c :: cs => (offset, c) :: withOffsets (offset + c.utf8Size) cs

/-- Whether all bytes of a character are between two offsets. -/
def IsWithin (start stop : Nat) (placed : Nat × Char) : Prop :=
  start ≤ placed.1 ∧ placed.1 + placed.2.utf8Size ≤ stop

instance (start stop : Nat) : DecidablePred (IsWithin start stop) :=
  fun placed => inferInstanceAs (Decidable (_ ≤ placed.1 ∧ _))

theorem map_snd_withOffsets (offset : Nat) (cs : List Char) :
    (withOffsets offset cs).map Prod.snd = cs := by
  induction cs generalizing offset with
  | nil => rfl
  | cons c cs ih => rw [withOffsets, List.map_cons, ih]

theorem length_encode_cons (c : Char) (cs : List Char) :
    (encode (c :: cs)).length = c.utf8Size + (encode cs).length := by
  rw [encode, List.flatMap_cons, List.length_append, String.length_utf8EncodeChar, encode]

/-- The offset of a character is the number of the bytes before it. -/
theorem getElem?_withOffsets (offset : Nat) (front : List Char) (c : Char) (back : List Char) :
    (withOffsets offset (front ++ c :: back))[front.length]? =
      some (offset + (encode front).length, c) := by
  induction front generalizing offset with
  | nil => rfl
  | cons d front ih =>
      rw [List.cons_append, withOffsets, List.length_cons, List.getElem?_cons_succ, ih,
        length_encode_cons, Nat.add_assoc]

theorem le_of_mem_withOffsets {offset : Nat} {cs : List Char} {placed : Nat × Char}
    (h : placed ∈ withOffsets offset cs) : offset ≤ placed.1 := by
  induction cs generalizing offset with
  | nil => exact absurd h List.not_mem_nil
  | cons c cs ih =>
      rcases List.mem_cons.mp h with rfl | hlater
      · exact Nat.le_refl offset
      · exact Nat.le_of_add_right_le (ih hlater)

/-- Of two characters the later one begins where the earlier one ends, or after that. -/
theorem pairwise_withOffsets (offset : Nat) (cs : List Char) :
    (withOffsets offset cs).Pairwise fun first second =>
      first.1 + first.2.utf8Size ≤ second.1 := by
  induction cs generalizing offset with
  | nil => exact List.Pairwise.nil
  | cons c cs ih => exact List.pairwise_cons.mpr ⟨fun _ => le_of_mem_withOffsets, ih _⟩

theorem filter_isWithin_eq_nil {start stop : Nat} {placed : List (Nat × Char)}
    (h : ∀ char ∈ placed, stop < char.1 + char.2.utf8Size) :
    placed.filter (IsWithin start stop ·) = [] :=
  List.filter_eq_nil_iff.mpr fun char hchar hin =>
    Nat.not_le.mpr (h char hchar) (of_decide_eq_true hin).2

/-- Of characters that follow one another, those within a range are next to each other: before
them are the characters that begin before the range, after them those that end after it. -/
theorem exists_split (start stop : Nat) {placed : List (Nat × Char)}
    (h : placed.Pairwise fun first second => first.1 + first.2.utf8Size ≤ second.1) :
    ∃ before after,
      placed = before ++ placed.filter (IsWithin start stop ·) ++ after ∧
        (∀ char ∈ before, char.1 < start) ∧
        ∀ char ∈ after, stop < char.1 + char.2.utf8Size := by
  induction placed with
  | nil => exact ⟨[], [], rfl, by simp, by simp⟩
  | cons first rest ih =>
      obtain ⟨hlater, hrest⟩ := List.pairwise_cons.mp h
      obtain ⟨before, after, hsplit, hbefore, hafter⟩ := ih hrest
      have hmem : ∀ char ∈ before, char ∈ rest := fun char hchar => by
        rw [hsplit, List.append_assoc]
        exact List.mem_append_left _ hchar
      rcases Nat.lt_or_ge first.1 start with hstart | hstart
      · have hnot : ¬ IsWithin start stop first := fun hin => Nat.not_le.mpr hstart hin.1
        have hearly : ∀ char ∈ first :: before, char.1 < start :=
          List.forall_mem_cons.mpr ⟨hstart, hbefore⟩
        refine ⟨first :: before, after, ?_, hearly, hafter⟩
        rw [List.filter_cons_of_neg (by simpa using hnot), List.cons_append, List.cons_append,
          ← hsplit]
      rcases Nat.lt_or_ge stop (first.1 + first.2.utf8Size) with hstop | hstop
      · -- All that follows ends after the range as well, so that nothing is within it.
        have hall : ∀ char ∈ first :: rest, stop < char.1 + char.2.utf8Size := by
          refine List.forall_mem_cons.mpr ⟨hstop, fun char hchar => ?_⟩
          have := hlater char hchar
          omega
        refine ⟨[], first :: rest, ?_, by simp, hall⟩
        rw [filter_isWithin_eq_nil hall, List.append_nil, List.nil_append]
      · have hempty : before = [] := by
          refine List.eq_nil_iff_forall_not_mem.mpr fun char hchar => ?_
          have := hlater char (hmem char hchar)
          have := hbefore char hchar
          omega
        rw [hempty, List.nil_append] at hsplit
        refine ⟨[], after, ?_, by simp, hafter⟩
        rw [List.filter_cons_of_pos (by simpa using ⟨hstart, hstop⟩), List.nil_append,
          List.cons_append, ← hsplit]

/-- A member of three lists in a row is in the one that its index leads to. -/
theorem mem_part_of_getElem? {α : Type} {before kept after : List α} {index : Nat} {a : α}
    (h : (before ++ kept ++ after)[index]? = some a) :
    (index < before.length ∧ a ∈ before) ∨
      (before.length ≤ index ∧ index < before.length + kept.length ∧ a ∈ kept) ∨
      (before.length + kept.length ≤ index ∧ a ∈ after) := by
  rcases Nat.lt_or_ge index (before ++ kept).length with hin | hafter
  · rw [List.getElem?_append_left hin] at h
    rw [List.length_append] at hin
    rcases Nat.lt_or_ge index before.length with hbefore | hkept
    · rw [List.getElem?_append_left hbefore] at h
      exact Or.inl ⟨hbefore, List.mem_of_getElem? h⟩
    · rw [List.getElem?_append_right hkept] at h
      exact Or.inr (Or.inl ⟨hkept, hin, List.mem_of_getElem? h⟩)
  · rw [List.getElem?_append_right hafter] at h
    rw [List.length_append] at hafter
    exact Or.inr (Or.inr ⟨hafter, List.mem_of_getElem? h⟩)

end Offsets

section Characters

variable {c : Char} {rest : List UInt8} {size skipped : Nat}

/-- Nothing is read from what is left of a character without its last byte. -/
theorem decoded_of_cut_character (hsize : size < c.utf8Size) :
    decoded (((utf8EncodeChar c ++ rest).take size).drop skipped) = [] := by
  have hprefix := List.take_prefix size (utf8EncodeChar c)
  rw [← String.length_utf8EncodeChar] at hsize
  rw [List.take_append_of_le_length (Nat.le_of_lt hsize), ← List.append_nil (List.drop skipped _)]
  rcases Nat.eq_zero_or_pos skipped with rfl | hskipped
  · rw [List.drop_zero, decoded_append_of_beginsCharacter ⟨c, hprefix⟩, decoded_nil]
    intro d hd
    rw [List.append_nil] at hd
    have hlength := hd.length_le
    rw [eq_of_prefix_utf8EncodeChar (hd.trans hprefix), List.length_take] at hlength
    omega
  · rw [decoded_append_of_not_first, decoded_nil]
    intro b hb
    rw [List.drop_take] at hb
    exact not_first_of_mem_drop hskipped b (List.mem_of_mem_take hb)

theorem take_utf8EncodeChar_append (hsize : c.utf8Size ≤ size) :
    (utf8EncodeChar c ++ rest).take size =
      utf8EncodeChar c ++ rest.take (size - c.utf8Size) := by
  rw [← String.length_utf8EncodeChar] at hsize
  rw [List.take_append, List.take_of_length_le hsize, String.length_utf8EncodeChar]

/-- What is left of a character without its first byte is passed over. -/
theorem decoded_of_begun_character (hsize : c.utf8Size ≤ size) (hskipped : 0 < skipped) :
    decoded (((utf8EncodeChar c ++ rest).take size).drop skipped) =
      decoded ((rest.take (size - c.utf8Size)).drop (skipped - c.utf8Size)) := by
  rw [take_utf8EncodeChar_append hsize, List.drop_append, String.length_utf8EncodeChar,
    decoded_append_of_not_first]
  exact not_first_of_mem_drop hskipped

/-- A character with all its bytes is read. -/
theorem decoded_of_whole_character (hsize : c.utf8Size ≤ size) :
    decoded ((utf8EncodeChar c ++ rest).take size) =
      c :: decoded (rest.take (size - c.utf8Size)) := by
  rw [take_utf8EncodeChar_append hsize, decoded_encode_append]

end Characters

/-- From the bytes of a range the characters within it are read. -/
theorem decoded_drop_take_encode (start stop offset : Nat) (cs : List Char) :
    decoded (((encode cs).take (stop - offset)).drop (start - offset)) =
      ((withOffsets offset cs).filter (IsWithin start stop ·)).map Prod.snd := by
  induction cs generalizing offset with
  | nil => simp [encode, withOffsets, decoded_nil]
  | cons c cs ih =>
      have hrest := ih (offset + c.utf8Size)
      have hbytes : encode (c :: cs) = utf8EncodeChar c ++ encode cs := List.flatMap_cons
      have hpos := c.utf8Size_pos
      rw [← Nat.sub_sub, ← Nat.sub_sub] at hrest
      rw [withOffsets, hbytes]
      rcases Nat.lt_or_ge stop (offset + c.utf8Size) with hstop | hstop
      · have hnot : ¬ IsWithin start stop (offset, c) := fun hin => Nat.not_le.mpr hstop hin.2
        have hcut : stop - offset < c.utf8Size := by omega
        rw [Nat.sub_eq_zero_of_le (Nat.le_of_lt hcut), List.take_zero, List.drop_nil,
          decoded_nil] at hrest
        rw [List.filter_cons_of_neg (by simpa using hnot), ← hrest,
          decoded_of_cut_character hcut]
      have hsize : c.utf8Size ≤ stop - offset := Nat.le_sub_of_add_le' hstop
      rcases Nat.lt_or_ge offset start with hstart | hstart
      · have hnot : ¬ IsWithin start stop (offset, c) := fun hin => Nat.not_le.mpr hstart hin.1
        rw [List.filter_cons_of_neg (by simpa using hnot), ← hrest,
          decoded_of_begun_character hsize (Nat.sub_pos_of_lt hstart)]
      · rw [Nat.sub_eq_zero_of_le hstart, Nat.zero_sub, List.drop_zero] at hrest
        rw [List.filter_cons_of_pos (by simpa using ⟨hstart, hstop⟩), List.map_cons, ← hrest,
          Nat.sub_eq_zero_of_le hstart, List.drop_zero, decoded_of_whole_character hsize]

end Text

namespace Syntax.SourceUnit

open Text

theorem toList_nodeText (unit : SourceUnit) (node : Node) :
    (unit.nodeText node).toList =
      decoded (((encode unit.text.toList).take node.stop).drop node.start) := by
  rw [nodeText, textBetween, toList_decodeUtf8, ← bytes_eq_encode, ByteArray.data_extract,
    Array.toList_extract, List.extract, List.drop_take]

/-- The text of a node is made of the characters within its offsets. -/
theorem toList_nodeText_eq_filter (unit : SourceUnit) (node : Node) :
    (unit.nodeText node).toList = ((withOffsets 0 unit.text.toList).filter
      (IsWithin node.start node.stop ·)).map Prod.snd := by
  rw [toList_nodeText]
  exact decoded_drop_take_encode node.start node.stop 0 unit.text.toList

/-- **The text of a node is a run of characters.**  For any two offsets, a text is made up of
some characters, the text of the node and some more characters, where a character of the text
is in the middle part if and only if all of its bytes are between the two offsets.  Of the
bytes between the offsets, those that exist, a reader that gives up broken parts makes this
text and no other. -/
theorem nodeText_is_run_of_characters (unit : SourceUnit) (node : Node) :
    (∃ before after, unit.text.toList = before ++ (unit.nodeText node).toList ++ after ∧
      ∀ front c back, unit.text.toList = front ++ c :: back →
        ((before.length ≤ front.length ∧
            front.length < before.length + (unit.nodeText node).toList.length) ↔
          node.start ≤ (encode front).length ∧
            (encode (front ++ [c])).length ≤ node.stop)) ∧
    ∀ cs, Reads (((encode unit.text.toList).take node.stop).drop node.start) cs ↔
      cs = (unit.nodeText node).toList := by
  obtain ⟨before, after, hsplit, hbefore, hafter⟩ :=
    exists_split node.start node.stop (pairwise_withOffsets 0 unit.text.toList)
  have hkept := toList_nodeText_eq_filter unit node
  refine ⟨⟨before.map Prod.snd, after.map Prod.snd, ?_, ?_⟩, fun cs => ?_⟩
  · have hchars := congrArg (List.map Prod.snd) hsplit
    rwa [map_snd_withOffsets, List.map_append, List.map_append, ← hkept] at hchars
  · intro front c back htext
    have hplaced := getElem?_withOffsets 0 front c back
    have hend : (encode (front ++ [c])).length = (encode front).length + c.utf8Size := by
      rw [encode, List.flatMap_append, List.flatMap_singleton, List.length_append,
        String.length_utf8EncodeChar, encode]
    rw [← htext, hsplit, Nat.zero_add] at hplaced
    rw [hkept, hend, List.length_map, List.length_map]
    rcases mem_part_of_getElem? hplaced with
      ⟨hindex, hmem⟩ | ⟨hlow, hhigh, hmem⟩ | ⟨hindex, hmem⟩
    · have := hbefore _ hmem
      simp only at this
      omega
    · have hin := of_decide_eq_true (List.mem_filter.mp hmem).2
      exact iff_of_true ⟨hlow, hhigh⟩ hin
    · have := hafter _ hmem
      simp only at this
      omega
  · rw [reads_iff, ← toList_nodeText]

/-- A text with characters of one, three, two, four bytes and one byte. -/
def mixedWidths : SourceUnit :=
  { path := "Widths.java"
    text := "a\u20ac\u00e9😀b"
    root := ⟨"program", 0, 11, true, false, none, []⟩ }

/-- A node that begins inside the second character and ends inside the fourth. -/
def cuttingNode : Node :=
  ⟨"identifier", 2, 9, true, false, none, []⟩

/-- The text of the node is the character between them. -/
theorem nodeText_cuttingNode :
    mixedWidths.text.toList = ['a', '\u20ac'] ++ '\u00e9' :: ['😀', 'b'] ∧
      mixedWidths.nodeText cuttingNode = "\u00e9" ∧
      ∃ before after, mixedWidths.text.toList = before ++ ['\u00e9'] ++ after ∧
        before.length ≤ 2 ∧ 2 < before.length + 1 := by
  have htext : mixedWidths.text.toList = ['a', '\u20ac'] ++ '\u00e9' :: ['😀', 'b'] := by decide
  have hnode : (mixedWidths.nodeText cuttingNode).toList = ['\u00e9'] := by
    rw [toList_nodeText_eq_filter]
    decide
  obtain ⟨⟨before, after, hrun, hwithin⟩, _⟩ :=
    nodeText_is_run_of_characters mixedWidths cuttingNode
  have hindex := (hwithin _ _ _ htext).mpr (by decide)
  rw [hnode] at hrun hindex
  exact ⟨htext, String.toList_inj.mp hnode, before, after, hrun, hindex⟩

end Syntax.SourceUnit
end JavaSketch
