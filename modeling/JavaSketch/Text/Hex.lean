/-!
# Hexadecimal numerals of fixed width

Escapes name a character by its code point, written with lower-case digits in
two, four or eight places.
-/

namespace JavaSketch
namespace Text

/-- The lower-case digit for a number below sixteen. -/
def hexDigit (n : Nat) : Char :=
  if n < 10 then Char.ofNat (n + 0x30) else Char.ofNat (n + 0x57)

/-- The last `width` hexadecimal digits of `n`, most significant first. -/
def hexChars : Nat → Nat → List Char
  | 0, _ => []
  | width + 1, n => hexChars width (n / 16) ++ [hexDigit (n % 16)]

end Text
end JavaSketch
