import JavaSketch.Conversion

/-!
# Line feeds and lines

Lines are counted in two ways: a syntax node by the line feed bytes before its
ends, a text by the pieces between its line feed characters.  Both agree since
no other character has a line feed byte in its encoding.

**Results.**
* `exists_pieces_append`: the pieces of two texts one after the other.
* `split_join_eq_iff`: which lines can be joined and split again.
* `count_lineFeed_flatMap`: as many line feed bytes as line feed characters.
* `size_buffer_eq_lineAt`: the last byte of a text is on its last line.
* `lineAt_le_size_buffer`: a byte other than a line feed ends on a line of the text.
-/

namespace JavaSketch

namespace Text

theorem pieces_cons_of_ne {sep c : Char} (h : c ≠ sep) (cs : List Char) :
    ∃ piece rest, pieces sep cs = piece :: rest ∧
      pieces sep (c :: cs) = (c :: piece) :: rest := by
  cases hp : pieces sep cs with
  | nil => exact absurd hp (pieces_ne_nil sep cs)
  | cons piece rest =>
      refine ⟨piece, rest, rfl, ?_⟩
      unfold pieces at hp ⊢
      simp [piecesWhere, h, hp]

/-- There is one piece more than there are separators. -/
theorem length_pieces (sep : Char) (cs : List Char) :
    (pieces sep cs).length = cs.count sep + 1 := by
  induction cs with
  | nil => rfl
  | cons c cs ih =>
      by_cases h : c = sep
      · subst h
        rw [pieces_cons_self, List.length_cons, ih, List.count_cons_self]
      · obtain ⟨piece, rest, hcs, hcons⟩ := pieces_cons_of_ne h cs
        rw [hcs] at ih
        rw [hcons, List.count_cons_of_ne h, ← ih]
        rfl

/-- The last piece of a text goes on with the first piece of what is put behind it. -/
theorem exists_pieces_append (sep : Char) (front back : List Char) :
    ∃ init last first rest, pieces sep front = init ++ [last] ∧
      pieces sep back = first :: rest ∧
      pieces sep (front ++ back) = init ++ (last ++ first) :: rest := by
  obtain ⟨first, rest, hback⟩ := List.exists_cons_of_ne_nil (pieces_ne_nil sep back)
  induction front with
  | nil => exact ⟨[], [], first, rest, rfl, hback, hback⟩
  | cons c front ih =>
      obtain ⟨init, last, first', rest', hfront, hback', hall⟩ := ih
      by_cases hc : c = sep
      · subst hc
        refine ⟨[] :: init, last, first', rest', ?_, hback', ?_⟩
        · rw [pieces_cons_self, hfront]
          rfl
        · rw [List.cons_append, pieces_cons_self, hall]
          rfl
      · obtain ⟨piece, more, hpiece, hcons⟩ := pieces_cons_of_ne hc front
        obtain ⟨piece', more', hpiece', hcons'⟩ := pieces_cons_of_ne hc (front ++ back)
        rw [hfront] at hpiece
        rw [hall] at hpiece'
        cases init with
        | nil =>
            obtain ⟨rfl, rfl⟩ := List.cons.inj hpiece
            obtain ⟨rfl, rfl⟩ := List.cons.inj hpiece'
            exact ⟨[], c :: last, first', rest', hcons, hback', hcons'⟩
        | cons next init =>
            obtain ⟨rfl, rfl⟩ := List.cons.inj hpiece
            obtain ⟨rfl, rfl⟩ := List.cons.inj hpiece'
            exact ⟨(c :: next) :: init, last, first', rest', hcons, hback', hcons'⟩

theorem pieces_append_separated (sep : Char) (front back : List Char) :
    pieces sep (front ++ sep :: back) = pieces sep front ++ pieces sep back := by
  obtain ⟨init, last, first, rest, hfront, hback, hall⟩ :=
    exists_pieces_append sep front (sep :: back)
  rw [pieces_cons_self] at hback
  obtain ⟨rfl, rfl⟩ := List.cons.inj hback
  rw [hall, hfront, List.append_nil, List.append_assoc, List.singleton_append]

theorem pieces_concat_self (sep : Char) (cs : List Char) :
    pieces sep (cs ++ [sep]) = pieces sep cs ++ [[]] := by
  rw [pieces_append_separated, pieces_nil]

theorem getLast?_pieces_concat_of_ne {sep c : Char} (h : c ≠ sep) (cs : List Char) :
    (pieces sep (cs ++ [c])).getLast? ≠ some [] := by
  induction cs with
  | nil =>
      obtain ⟨piece, rest, hnil, hcons⟩ := pieces_cons_of_ne h []
      rw [pieces_nil] at hnil
      obtain ⟨rfl, rfl⟩ := List.cons.inj hnil
      simp [hcons]
  | cons d cs ih =>
      by_cases hd : d = sep
      · subst hd
        cases hp : pieces d (cs ++ [c]) with
        | nil => exact absurd hp (pieces_ne_nil d _)
        | cons piece rest =>
            rw [hp] at ih
            rw [List.cons_append, pieces_cons_self, hp, List.getLast?_cons_cons]
            exact ih
      · obtain ⟨piece, rest, hcs, hcons⟩ := pieces_cons_of_ne hd (cs ++ [c])
        rw [hcs] at ih
        rw [List.cons_append, hcons]
        cases rest with
        | nil => simp
        | cons next rest =>
            rw [List.getLast?_cons_cons] at ih ⊢
            exact ih

/-- The last character of a text is on its last line, also if it is a line feed. -/
theorem length_lineChars_concat (cs : List Char) (c : Char) :
    (lineChars (cs ++ [c])).length = cs.count '\n' + 1 := by
  by_cases h : c = '\n'
  · subst h
    have hlast : (pieces '\n' (cs ++ ['\n'])).getLast? = some [] := by
      simp [pieces_concat_self]
    simp only [lineChars, hlast, if_true]
    rw [pieces_concat_self, List.dropLast_concat, length_pieces]
  · have hlast := getLast?_pieces_concat_of_ne h cs
    simp only [lineChars, hlast, if_false, length_pieces, List.count_append]
    rw [List.count_singleton, if_neg (by simpa using h)]

/-- A piece holds characters of the text other than separators. -/
theorem mem_of_mem_pieces {sep c : Char} {cs piece : List Char}
    (hpiece : piece ∈ pieces sep cs) (hc : c ∈ piece) : c ∈ cs ∧ c ≠ sep := by
  induction cs generalizing piece with
  | nil =>
      rw [pieces_nil, List.mem_singleton] at hpiece
      simp [hpiece] at hc
  | cons d cs ih =>
      by_cases hd : d = sep
      · subst hd
        rw [pieces_cons_self, List.mem_cons] at hpiece
        rcases hpiece with rfl | hpiece
        · simp at hc
        · exact ⟨List.mem_cons_of_mem d (ih hpiece hc).1, (ih hpiece hc).2⟩
      · obtain ⟨first, rest, hcs, hcons⟩ := pieces_cons_of_ne hd cs
        rw [hcs] at ih
        rw [hcons] at hpiece
        rcases List.mem_cons.mp hpiece with rfl | hrest
        · rcases List.mem_cons.mp hc with rfl | hc
          · exact ⟨List.mem_cons_self, hd⟩
          · have hfirst := ih List.mem_cons_self hc
            exact ⟨List.mem_cons_of_mem d hfirst.1, hfirst.2⟩
        · have hlater := ih (List.mem_cons_of_mem first hrest) hc
          exact ⟨List.mem_cons_of_mem d hlater.1, hlater.2⟩

theorem pieces_of_not_mem {sep : Char} {piece : List Char} (h : sep ∉ piece) :
    pieces sep piece = [piece] := by
  induction piece with
  | nil => rfl
  | cons c piece ih =>
      rw [List.mem_cons, not_or] at h
      obtain ⟨first, rest, hcs, hcons⟩ := pieces_cons_of_ne (Ne.symm h.1) piece
      rw [ih h.2] at hcs
      obtain ⟨rfl, rfl⟩ := List.cons.inj hcs
      exact hcons

theorem pieces_append_cons {sep : Char} {piece : List Char} (h : sep ∉ piece)
    (cs : List Char) : pieces sep (piece ++ sep :: cs) = piece :: pieces sep cs := by
  rw [pieces_append_separated, pieces_of_not_mem h, List.singleton_append]

/-- Pieces without separators are what their join is cut into. -/
theorem pieces_joinWith {sep : Char} {all : List (List Char)} (hall : all ≠ [])
    (h : ∀ piece ∈ all, sep ∉ piece) : pieces sep (joinWith sep all) = all := by
  induction all with
  | nil => exact absurd rfl hall
  | cons piece rest ih =>
      have hpiece := h piece List.mem_cons_self
      cases rest with
      | nil => exact pieces_of_not_mem hpiece
      | cons next rest =>
          rw [joinWith, pieces_append_cons hpiece,
            ih (List.cons_ne_nil next rest) fun other hother =>
              h other (List.mem_cons_of_mem piece hother)]

theorem toList_join_singleton (sep : Char) (texts : List String) :
    (join (String.singleton sep) texts).toList = joinWith sep (texts.map String.toList) := by
  induction texts with
  | nil => rfl
  | cons text rest ih =>
      cases rest with
      | nil => rfl
      | cons next rest =>
          rw [List.map_cons] at ih
          simp [join, joinWith, ih]

/-- Lines are what the joined text is split into if and only if none of them has
a line feed. -/
theorem split_join_eq_iff {lines : List String} (hlines : lines ≠ []) :
    split '\n' (join "\n" lines) = lines ↔ ∀ line ∈ lines, '\n' ∉ line.toList := by
  have hjoin := toList_join_singleton '\n' lines
  constructor
  · intro hsplit line hline
    rw [← hsplit] at hline
    obtain ⟨piece, hpiece, rfl⟩ := List.mem_map.mp hline
    rw [String.toList_ofList]
    exact fun hmem => (mem_of_mem_pieces hpiece hmem).2 rfl
  · intro h
    have hpieces : pieces '\n' (joinWith '\n' (lines.map String.toList)) =
        lines.map String.toList := by
      refine pieces_joinWith (by simpa using hlines) fun piece hpiece => ?_
      obtain ⟨line, hline, rfl⟩ := List.mem_map.mp hpiece
      exact h line hline
    rw [split, show "\n" = String.singleton '\n' from rfl, hjoin, hpieces, List.map_map]
    simp

theorem lineFeed_not_mem_of_mem_splitLines {text line : String}
    (h : line ∈ splitLines text) : '\n' ∉ line.toList := by
  obtain ⟨piece, hpiece, rfl⟩ := List.mem_map.mp h
  have hmem : piece ∈ pieces '\n' text.toList := by
    simp only [lineChars] at hpiece
    split at hpiece
    · exact List.dropLast_subset _ hpiece
    · exact hpiece
  rw [String.toList_ofList]
  exact fun hlineFeed => (mem_of_mem_pieces hmem hlineFeed).2 rfl

/-- Only a line feed has a line feed byte in its encoding. -/
theorem eq_lineFeed_of_mem_utf8EncodeChar {c : Char}
    (h : 0x0A ∈ String.utf8EncodeChar c) : c = '\n' := by
  have hbyte : ∀ n : Nat, (0x0A : UInt8) = UInt8.ofNat n → n % 256 = 10 := by
    intro n hn
    simpa using (congrArg UInt8.toNat hn).symm
  unfold String.utf8EncodeChar at h
  simp only at h
  split at h
  · have hn := hbyte _ (List.mem_singleton.mp h)
    apply Char.ext
    apply UInt32.toNat_inj.mp
    change c.val.toNat = 10
    omega
  -- Every byte of a longer encoding has its highest bit set.
  · exfalso
    split at h
    · simp only [List.mem_cons, List.not_mem_nil, or_false] at h
      rcases h with h | h <;> have hn := hbyte _ h <;> omega
    · split at h <;> simp only [List.mem_cons, List.not_mem_nil, or_false] at h
      · rcases h with h | h | h <;> have hn := hbyte _ h <;> omega
      · rcases h with h | h | h | h <;> have hn := hbyte _ h <;> omega

theorem count_lineFeed_utf8EncodeChar (c : Char) :
    (String.utf8EncodeChar c).count 0x0A = [c].count '\n' := by
  by_cases h : c = '\n'
  · subst h
    decide
  · have hmem : (0x0A : UInt8) ∉ String.utf8EncodeChar c := fun hmem =>
      h (eq_lineFeed_of_mem_utf8EncodeChar hmem)
    rw [List.count_eq_zero_of_not_mem hmem, List.count_singleton, if_neg (by simpa using h)]

theorem count_lineFeed_dropLast_utf8EncodeChar (c : Char) :
    (String.utf8EncodeChar c).dropLast.count 0x0A = 0 := by
  by_cases h : c = '\n'
  · subst h
    decide
  · refine List.count_eq_zero_of_not_mem fun hmem => h ?_
    exact eq_lineFeed_of_mem_utf8EncodeChar ((List.dropLast_sublist _).subset hmem)

theorem count_lineFeed_flatMap (cs : List Char) :
    (cs.flatMap String.utf8EncodeChar).count 0x0A = cs.count '\n' := by
  induction cs with
  | nil => rfl
  | cons c cs ih =>
      rw [List.flatMap_cons, List.count_append, ih, count_lineFeed_utf8EncodeChar,
        ← List.count_append, List.singleton_append]

theorem toList_toUTF8 (text : String) :
    text.toUTF8.data.toList = text.toList.flatMap String.utf8EncodeChar := by
  rw [String.toUTF8_eq_toByteArray, ← String.utf8Encode_toList, List.utf8Encode,
    List.toList_data_toByteArray]

end Text

namespace Syntax.SourceUnit

open Text

theorem length_bytes (unit : SourceUnit) : unit.bytes.data.toList.length = unit.bytes.size :=
  Array.length_toList

theorem lineAt_succ_of_ne {unit : SourceUnit} {offset : Nat}
    (h : unit.bytes.data.toList[offset]? ≠ some 0x0A) :
    unit.lineAt (offset + 1) = unit.lineAt offset := by
  rw [lineAt_eq, lineAt_eq, List.take_add_one, List.count_append]
  cases hbyte : unit.bytes.data.toList[offset]? with
  | none => simp
  | some byte =>
      have hne : byte ≠ 0x0A := fun heq => h (by rw [hbyte, heq])
      simp [hne]

/-- The last byte of a text is on its last line. -/
theorem size_buffer_eq_lineAt {unit : SourceUnit} (h : 0 < unit.bytes.size) :
    unit.buffer.size = unit.lineAt (unit.bytes.size - 1) := by
  have hbytes : unit.bytes.data.toList = unit.text.toList.flatMap String.utf8EncodeChar :=
    toList_toUTF8 unit.text
  have hne : unit.text.toList ≠ [] := by
    intro hnil
    rw [← length_bytes, hbytes, hnil] at h
    simp at h
  obtain ⟨cs, c, hcs⟩ : ∃ cs c, unit.text.toList = cs ++ [c] :=
    ⟨_, _, (List.dropLast_concat_getLast hne).symm⟩
  have hlines : unit.buffer.size = cs.count '\n' + 1 := by
    simp [buffer, LineBuffer.size, splitLines, hcs, length_lineChars_concat]
  have hdrop : unit.bytes.data.toList.dropLast =
      cs.flatMap String.utf8EncodeChar ++ (String.utf8EncodeChar c).dropLast := by
    rw [hbytes, hcs, List.flatMap_append, List.flatMap_singleton,
      List.dropLast_append_of_ne_nil String.utf8EncodeChar_ne_nil]
  rw [hlines, lineAt_eq, ← length_bytes, ← List.dropLast_eq_take, hdrop,
    List.count_append, count_lineFeed_flatMap, count_lineFeed_dropLast_utf8EncodeChar]

/-- The end of a byte that is not a line feed is on a line of the text. -/
theorem lineAt_le_size_buffer {unit : SourceUnit} {offset : Nat}
    (hsize : offset < unit.bytes.size)
    (hbyte : unit.bytes.data.toList[offset]? ≠ some 0x0A) :
    unit.lineAt (offset + 1) ≤ unit.buffer.size := by
  rw [lineAt_succ_of_ne hbyte, size_buffer_eq_lineAt (by omega)]
  exact unit.lineAt_mono (by omega)

end Syntax.SourceUnit

end JavaSketch
