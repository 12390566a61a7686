/-!
# Reading UTF-8 with gaps

Source files and byte ranges cut out of them need not be well-formed UTF-8.
Reading keeps every character whose whole encoding is present and passes over
each byte that starts none, so a damaged sequence costs its own bytes and
nothing after them.

**Results.**
* `decodeFrom_of_size_le`: nothing is read at or past the end.
-/

namespace JavaSketch
namespace Text

/-- The characters encoded in `bytes` from offset `i` on; a byte that starts no
well-formed sequence is passed over. -/
def decodeFrom (bytes : ByteArray) (i : Nat) : List Char :=
  if i < bytes.size then
    match bytes.utf8DecodeChar? i with
    | some c => c :: decodeFrom bytes (i + c.utf8Size)
    | none => decodeFrom bytes (i + 1)
  else []
termination_by bytes.size - i
decreasing_by
  · have := c.utf8Size_pos
    omega
  · omega

/-- The text that a sequence of bytes holds. -/
def decodeUtf8 (bytes : ByteArray) : String :=
  String.ofList (decodeFrom bytes 0)

theorem decodeFrom_of_size_le {bytes : ByteArray} {i : Nat} (h : bytes.size ≤ i) :
    decodeFrom bytes i = [] := by
  unfold decodeFrom
  simp [Nat.not_lt.mpr h]

end Text
end JavaSketch
