import JavaSketch.Text.Split

/-!
# Blank characters

The blanks are the characters that indent a line, surround a file name, or
separate the words of a type: the Unicode white space together with the four
information separators U+001C to U+001F.  The zero-width characters U+200B and
U+FEFF are not among them.
-/

namespace JavaSketch
namespace Text

/-- Whether a character is white space. -/
def isBlank (c : Char) : Bool :=
  let n := c.toNat
  (0x09 ≤ n && n ≤ 0x0D) || (0x1C ≤ n && n ≤ 0x20) || n == 0x85 || n == 0xA0
    || n == 0x1680 || (0x2000 ≤ n && n ≤ 0x200A) || n == 0x2028 || n == 0x2029
    || n == 0x202F || n == 0x205F || n == 0x3000

/-- The blanks at the start of a line. -/
def leadingBlankChars (cs : List Char) : List Char :=
  cs.takeWhile isBlank

/-- The indentation of a line: the blanks before its first other character. -/
def indentation (line : String) : String :=
  String.ofList (leadingBlankChars line.toList)

/-- The characters between the blanks at both ends. -/
def trimChars (cs : List Char) : List Char :=
  ((cs.dropWhile isBlank).reverse.dropWhile isBlank).reverse

/-- The maximal runs of characters that are not blank. -/
def words (text : String) : List String :=
  ((piecesWhere isBlank text.toList).filter (· ≠ [])).map String.ofList

/-- The words of a text with one space between neighbours. -/
def collapseBlanks (text : String) : String :=
  join " " (words text)

end Text
end JavaSketch
