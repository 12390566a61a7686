import JavaSketch.Text.Utf8
import Mathlib.Data.Nat.Find

/-!
# Broken characters

Bytes cut out of a text can begin in the middle of a character and end in the middle of
another, and bytes of a file can be no text at all.  A reader of UTF-8 that is told to ignore
errors gives up the longest beginning of a character that it cannot complete, or one byte
that begins no character, and looks again at the byte after it.  Passing over one byte after
the other gives the same text: every byte after the first one of a character is marked as a
later byte, and no character starts with such a byte.

**Results.**
* `decoded_encode_append`, `decoded_cons`: reading a character, and passing over a byte.
* `decoded_append_of_not_first`: later bytes of characters are passed over.
* `decoded_append_of_beginsCharacter`: so are beginnings that are not completed.
* `reads_iff`: the reader that gives up longest beginnings reads the same characters.
-/

namespace JavaSketch
namespace Text

open String (utf8EncodeChar)

section Equations

/-- The characters that are read from some bytes. -/
def decoded (bytes : List UInt8) : List Char :=
  decodeFrom bytes.toByteArray 0

theorem toList_decodeUtf8 (bytes : ByteArray) :
    (decodeUtf8 bytes).toList = decoded bytes.data.toList := by
  have hbytes : bytes.data.toList.toByteArray = bytes :=
    ByteArray.ext (by rw [List.data_toByteArray, Array.toArray_toList])
  rw [decodeUtf8, decoded, hbytes, String.toList_ofList]

theorem utf8DecodeChar?_append_right (front back : ByteArray) (i : Nat) :
    (front ++ back).utf8DecodeChar? (front.size + i) = back.utf8DecodeChar? i := by
  rw [ByteArray.utf8DecodeChar?_eq_utf8DecodeChar?_extract, ByteArray.size_append,
    ByteArray.extract_append_size_add, ← ByteArray.utf8DecodeChar?_eq_utf8DecodeChar?_extract]

/-- Reading on after some bytes does not look back at them. -/
theorem decodeFrom_append_right (front back : ByteArray) (i : Nat) :
    decodeFrom (front ++ back) (front.size + i) = decodeFrom back i := by
  have hsize : (front ++ back).size = front.size + back.size := ByteArray.size_append
  induction i using decodeFrom.induct back with
  | case1 i hi c hc ih =>
      rw [decodeFrom, decodeFrom.eq_1 back i, utf8DecodeChar?_append_right, hc, hsize,
        if_pos (Nat.add_lt_add_left hi _), if_pos hi]
      exact congrArg (c :: ·) ((Nat.add_assoc _ _ _).symm ▸ ih)
  | case2 i hi hc ih =>
      rw [decodeFrom, decodeFrom.eq_1 back i, utf8DecodeChar?_append_right, hc, hsize,
        if_pos (Nat.add_lt_add_left hi _), if_pos hi]
      exact ih
  | case3 i hi =>
      rw [decodeFrom_of_size_le (Nat.not_lt.mp hi), decodeFrom_of_size_le (by omega)]

theorem utf8DecodeChar?_eq_some_iff {bytes : List UInt8} {c : Char} :
    bytes.toByteArray.utf8DecodeChar? 0 = some c ↔ utf8EncodeChar c <+: bytes := by
  constructor
  · intro h
    obtain ⟨rest, hrest⟩ := ByteArray.exists_of_utf8DecodeChar?_eq_some h
    have hlists := congrArg (fun array : ByteArray => array.data.toList) hrest
    simp only [ByteArray.toList_data_append, List.toList_data_toByteArray] at hlists
    exact ⟨rest.data.toList, hlists.symm⟩
  · rintro ⟨rest, rfl⟩
    rw [List.toByteArray_append]
    exact ByteArray.utf8DecodeChar?_utf8EncodeChar_append

theorem decoded_nil : decoded [] = [] :=
  decodeFrom_of_size_le (Nat.le_refl 0)

theorem decoded_encode_append (c : Char) (rest : List UInt8) :
    decoded (utf8EncodeChar c ++ rest) = c :: decoded rest := by
  have hc := utf8DecodeChar?_eq_some_iff.mpr (List.prefix_append (utf8EncodeChar c) rest)
  have hsize := ByteArray.le_size_of_utf8DecodeChar?_eq_some hc
  have hpos := c.utf8Size_pos
  have hrest := decodeFrom_append_right (utf8EncodeChar c).toByteArray rest.toByteArray 0
  rw [List.size_toByteArray, String.length_utf8EncodeChar, ← List.toByteArray_append] at hrest
  rw [decoded, decodeFrom, hc, if_pos (by omega), decoded, ← hrest]
  simp only [Nat.zero_add, Nat.add_zero]

theorem decoded_cons {b : UInt8} {rest : List UInt8}
    (h : ∀ c, ¬ utf8EncodeChar c <+: b :: rest) : decoded (b :: rest) = decoded rest := by
  have hnone : (b :: rest).toByteArray.utf8DecodeChar? 0 = none :=
    Option.eq_none_iff_forall_ne_some.mpr fun c hc => h c (utf8DecodeChar?_eq_some_iff.mp hc)
  have hsize : 0 < (b :: rest).toByteArray.size := by
    rw [List.size_toByteArray]
    exact Nat.succ_pos _
  have hrest := decodeFrom_append_right [b].toByteArray rest.toByteArray 0
  rw [← List.toByteArray_append] at hrest
  rw [decoded, decodeFrom, hnone, if_pos hsize]
  exact hrest

end Equations

section Skipping

theorem eq_of_prefix_utf8EncodeChar {c d : Char} (h : utf8EncodeChar c <+: utf8EncodeChar d) :
    c = d := by
  have hc := utf8DecodeChar?_eq_some_iff.mpr h
  have hd := utf8DecodeChar?_eq_some_iff.mpr (List.prefix_refl (utf8EncodeChar d))
  exact Option.some.inj (hc.symm.trans hd)

/-- Bytes that do not start a character are passed over. -/
theorem decoded_append_of_not_first {front : List UInt8} (rest : List UInt8)
    (h : ∀ b ∈ front, ¬ b.IsUTF8FirstByte) : decoded (front ++ rest) = decoded rest := by
  induction front with
  | nil => rfl
  | cons b front ih =>
      rw [List.cons_append, decoded_cons, ih fun d hd => h d (List.mem_cons_of_mem b hd)]
      intro c hc
      obtain ⟨first, others, hencode⟩ :=
        List.exists_cons_of_ne_nil (@String.utf8EncodeChar_ne_nil c)
      have hfirst := @UInt8.isUTF8FirstByte_getElem_zero_utf8EncodeChar c
      simp only [hencode, List.getElem_cons_zero] at hfirst
      rw [hencode] at hc
      obtain ⟨rfl, _⟩ := List.cons_prefix_cons.mp hc
      exact h first List.mem_cons_self hfirst

/-- Only the first byte of a character starts one. -/
theorem not_first_of_mem_drop {c : Char} {k : Nat} (hk : 0 < k) :
    ∀ b ∈ (utf8EncodeChar c).drop k, ¬ b.IsUTF8FirstByte := by
  intro b hb
  obtain ⟨i, hi, rfl⟩ := List.mem_iff_getElem.mp hb
  rw [List.getElem_drop, UInt8.isUTF8FirstByte_getElem_utf8EncodeChar]
  omega

/-- Whether some bytes are the beginning of a character, which may be the whole of it. -/
def BeginsCharacter (bytes : List UInt8) : Prop :=
  ∃ c, bytes <+: utf8EncodeChar c

/-- The beginning of a character is passed over where no character comes to its end. -/
theorem decoded_append_of_beginsCharacter {part rest : List UInt8} (hpart : BeginsCharacter part)
    (hnone : ∀ c, ¬ utf8EncodeChar c <+: part ++ rest) :
    decoded (part ++ rest) = decoded rest := by
  obtain ⟨d, after, hd⟩ := hpart
  cases part with
  | nil => rfl
  | cons b part =>
      rw [List.cons_append] at hnone ⊢
      rw [decoded_cons hnone, decoded_append_of_not_first]
      intro later hlater
      refine not_first_of_mem_drop (c := d) Nat.one_pos later ?_
      rw [← hd]
      exact List.mem_append_left after hlater

end Skipping

/-- Whether `part` is what a reader has to give up of `part ++ rest`: no character comes first,
and `part` is the longest beginning of a character that does, or one byte if none does. -/
structure IsBrokenPart (part rest : List UInt8) : Prop where
  ne_nil : part ≠ []
  noCharacter : ∀ c, ¬ utf8EncodeChar c <+: part ++ rest
  begins : BeginsCharacter part ∨ part.length = 1
  longest : ∀ longer, longer <+: part ++ rest → BeginsCharacter longer →
    longer.length ≤ part.length

/-- What a reader makes of some bytes that gives up broken parts, as long as they are, and
looks again at the byte after each. -/
inductive Reads : List UInt8 → List Char → Prop
  | nil : Reads [] []
  | character (c : Char) {rest : List UInt8} {cs : List Char} (tail : Reads rest cs) :
      Reads (utf8EncodeChar c ++ rest) (c :: cs)
  | broken {part rest : List UInt8} {cs : List Char} (isBrokenPart : IsBrokenPart part rest)
      (tail : Reads rest cs) : Reads (part ++ rest) cs

theorem IsBrokenPart.decoded_append {part rest : List UInt8} (h : IsBrokenPart part rest) :
    decoded (part ++ rest) = decoded rest := by
  rcases h.begins with hbegins | hlone
  · exact decoded_append_of_beginsCharacter hbegins h.noCharacter
  · obtain ⟨b, rfl⟩ := List.length_eq_one_iff.mp hlone
    exact decoded_cons h.noCharacter

theorem Reads.eq_decoded {bytes : List UInt8} {cs : List Char} (h : Reads bytes cs) :
    cs = decoded bytes := by
  induction h with
  | nil => exact decoded_nil.symm
  | character c tail ih => rw [decoded_encode_append, ih]
  | broken isBrokenPart tail ih => rw [isBrokenPart.decoded_append, ih]

theorem exists_longest_beginning (bytes : List UInt8) :
    ∃ n ≤ bytes.length, BeginsCharacter (bytes.take n) ∧
      ∀ longer, longer <+: bytes → BeginsCharacter longer → longer.length ≤ n := by
  classical
  have hempty : BeginsCharacter (bytes.take 0) := ⟨'a', List.nil_prefix⟩
  have hgreatest := Nat.findGreatest_spec (P := fun n => BeginsCharacter (bytes.take n))
    (Nat.zero_le bytes.length) hempty
  refine ⟨_, Nat.findGreatest_le bytes.length, hgreatest, ?_⟩
  intro longer hlonger hbegins
  rw [List.prefix_iff_eq_take.mp hlonger] at hbegins
  exact Nat.le_findGreatest hlonger.length_le hbegins

theorem exists_isBrokenPart {bytes : List UInt8} (hne : bytes ≠ [])
    (hnone : ∀ c, ¬ utf8EncodeChar c <+: bytes) :
    ∃ part rest, bytes = part ++ rest ∧ IsBrokenPart part rest := by
  obtain ⟨n, hn, hbegins, hlongest⟩ := exists_longest_beginning bytes
  have hpos : 0 < bytes.length := List.length_pos_iff.mpr hne
  have hlength : (bytes.take (max n 1)).length = max n 1 := by
    rw [List.length_take]
    omega
  refine ⟨bytes.take (max n 1), bytes.drop (max n 1), (List.take_append_drop _ _).symm,
    ⟨List.length_pos_iff.mp (by omega), ?_, ?_, ?_⟩⟩
  · rwa [List.take_append_drop]
  · rcases Nat.eq_zero_or_pos n with rfl | hbegun
    · exact Or.inr hlength
    · rw [Nat.max_eq_left hbegun]
      exact Or.inl hbegins
  · intro longer hlonger hcharacter
    rw [List.take_append_drop] at hlonger
    have := hlongest longer hlonger hcharacter
    omega

theorem reads_decoded (bytes : List UInt8) : Reads bytes (decoded bytes) := by
  induction hn : bytes.length using Nat.strong_induction_on generalizing bytes with
  | _ n ih =>
    subst hn
    by_cases hcharacter : ∃ c, utf8EncodeChar c <+: bytes
    · obtain ⟨c, rest, rfl⟩ := hcharacter
      rw [decoded_encode_append]
      refine .character c (ih rest.length ?_ rest rfl)
      have := c.utf8Size_pos
      rw [List.length_append, String.length_utf8EncodeChar]
      omega
    · rcases eq_or_ne bytes [] with rfl | hne
      · rw [decoded_nil]
        exact .nil
      · obtain ⟨part, rest, rfl, hbroken⟩ := exists_isBrokenPart hne (not_exists.mp hcharacter)
        have hpart := List.length_pos_iff.mpr hbroken.ne_nil
        rw [hbroken.decoded_append]
        refine .broken hbroken (ih rest.length ?_ rest rfl)
        rw [List.length_append]
        omega

theorem reads_iff {bytes : List UInt8} {cs : List Char} :
    Reads bytes cs ↔ cs = decoded bytes :=
  ⟨Reads.eq_decoded, fun h => h ▸ reads_decoded bytes⟩

end Text
end JavaSketch
