import JavaSketch.Grammar.Rule
import JavaSketch.Text.Blank

/-!
# The tokens of a Java program

A program is cut into tokens from left to right, each as long as it can be.
Blanks separate tokens and are no tokens; comments are tokens that may stand
anywhere.

**Rules.**
* A closing angle bracket is a token by itself even next to another, so that the
  brackets of nested type arguments close one by one; the grammar puts shift
  operators together again.
* A letter is an ASCII letter, an underscore, a dollar sign or any character
  beyond ASCII that is not blank.
* A character that begins no token becomes a token that fits nowhere.
-/

namespace JavaSketch
namespace Java

open Grammar (Token)

/-- The words that can be nothing but keywords. -/
def keywords : List String :=
  ["abstract", "assert", "boolean", "break", "byte", "case", "catch", "char", "class",
    "continue", "default", "do", "double", "else", "enum", "extends", "false", "final",
    "finally", "float", "for", "if", "implements", "import", "instanceof", "int",
    "interface", "long", "native", "new", "null", "package", "private", "protected",
    "public", "return", "short", "static", "strictfp", "super", "switch", "synchronized",
    "this", "throw", "throws", "transient", "true", "try", "void", "volatile", "while"]

/-- The keywords that stand for a rule of the grammar. -/
def namedKeywords : List String :=
  ["false", "null", "super", "this", "true"]

/-- The operators and separators; of two that fit, the longer one counts. -/
def punctuation : List String :=
  ["...", "<<=", "->", "--", "-=", "++", "+=", "&&", "&=", "||", "|=", "==", "!=", "<=",
    "<<", ">=", "*=", "/=", "%=", "^=", "::", "(", ")", "\x7b", "\x7d", "[", "]", ";", ",",
    ".", "@", "=", "<", ">", "!", "~", "?", ":", "+", "-", "*", "/", "&", "|", "^", "%"]

/-- The symbols of comments. -/
def commentTypes : List String :=
  ["line_comment", "block_comment"]

/-- A token that has been seen at the start of a text. -/
structure Lexeme where
  /-- The symbol, or nothing for blanks. -/
  type : Option String
  /-- Whether the token stands for a rule of the grammar. -/
  named : Bool
  /-- The number of characters. -/
  length : Nat

/-- Whether a character separates tokens. -/
def isGap (c : Char) : Bool :=
  Text.isBlank c && !(0x1C ≤ c.toNat && c.toNat ≤ 0x1F)

/-- Whether a name may begin with a character. -/
def isLetter (c : Char) : Bool :=
  c.isAlpha || c == '_' || c == '$' || (0x80 ≤ c.toNat && !isGap c)

/-- Whether a character may be in a name. -/
def isLetterOrDigit (c : Char) : Bool :=
  isLetter c || c.isDigit

/-- Whether a character may be in a numeral. -/
def isNumeralChar (c : Char) : Bool :=
  c.isDigit || c == '_'

/-- Whether a character may be in a hexadecimal numeral. -/
def isHexNumeralChar (c : Char) : Bool :=
  isNumeralChar c || ('a' ≤ c && c ≤ 'f') || ('A' ≤ c && c ≤ 'F')

/-- The number of characters up to the first that fails a test. -/
def spanLength (test : Char → Bool) (cs : List Char) : Nat :=
  (cs.takeWhile test).length

/-- The number of characters to the end of the first occurrence of a closing
text; nothing if there is none. -/
def lengthThrough (closing : List Char) : List Char → Option Nat
  | [] => none
  | c :: cs =>
      if closing.isPrefixOf (c :: cs) then some closing.length
      else (lengthThrough closing cs).map (· + 1)

/-- The number of characters to the end of a closing text, skipping every
character behind a backslash; nothing if it is never closed. -/
def lengthQuoted (closing : List Char) : List Char → Option Nat
  | [] => none
  | '\\' :: _ :: cs => (lengthQuoted closing cs).map (· + 2)
  | c :: cs =>
      if closing.isPrefixOf (c :: cs) then some closing.length
      else (lengthQuoted closing cs).map (· + 1)

/-- The number of characters to the end of a character literal, which is not
empty and does not go over the end of a line. -/
def characterLength (cs : List Char) : Option Nat :=
  (lengthQuoted ['\''] cs).filter fun length => 1 < length && !(cs.take length).contains '\n'

/-- The length of the exponent a numeral may have, marked by one of two letters. -/
def exponentLength (lower upper : Char) (cs : List Char) : Nat :=
  match cs with
  | mark :: rest =>
      if mark == lower || mark == upper then
        match rest with
        | sign :: digits =>
            if sign == '+' || sign == '-' then
              if spanLength isNumeralChar digits = 0 then 0
              else 2 + spanLength isNumeralChar digits
            else if sign.isDigit then 1 + spanLength isNumeralChar rest
            else 0
        | [] => 0
      else 0
  | [] => 0

/-- The length of the letter that may close a numeral. -/
def suffixLength (letters : List Char) (cs : List Char) : Nat :=
  match cs with
  | c :: _ => if letters.contains c then 1 else 0
  | [] => 0

/-- The numeral at the start of a text that starts with a decimal digit, or with
a point before one. -/
def decimalNumeral (cs : List Char) : Lexeme :=
  let whole := spanLength isNumeralChar cs
  let afterWhole := cs.drop whole
  let fraction :=
    match afterWhole with
    | '.' :: rest => 1 + spanLength isNumeralChar rest
    | _ => 0
  let afterFraction := afterWhole.drop fraction
  let exponent := exponentLength 'e' 'E' afterFraction
  let afterExponent := afterFraction.drop exponent
  let floatSuffix := suffixLength ['f', 'F', 'd', 'D'] afterExponent
  if fraction + exponent + floatSuffix = 0 then
    ⟨some "decimal_integer_literal", true, whole + suffixLength ['l', 'L'] afterWhole⟩
  else
    ⟨some "decimal_floating_point_literal", true, whole + fraction + exponent + floatSuffix⟩

/-- The numeral at the start of a text, after the mark of a hexadecimal one. -/
def hexNumeral (cs : List Char) : Lexeme :=
  let digits := spanLength (fun c => isHexNumeralChar c || c == '.') cs
  let afterDigits := cs.drop digits
  let exponent := exponentLength 'p' 'P' afterDigits
  if exponent = 0 then
    ⟨some "hex_integer_literal", true, 2 + digits + suffixLength ['l', 'L'] afterDigits⟩
  else
    ⟨some "hex_floating_point_literal", true, 2 + digits + exponent
      + suffixLength ['f', 'F', 'd', 'D'] (afterDigits.drop exponent)⟩

/-- The numeral at the start of a text. -/
def numeral (cs : List Char) : Lexeme :=
  match cs with
  | '0' :: mark :: rest =>
      if mark == 'x' || mark == 'X' then hexNumeral rest
      else if mark == 'b' || mark == 'B' then
        let digits := spanLength isNumeralChar rest
        ⟨some "binary_integer_literal", true,
          2 + digits + suffixLength ['l', 'L'] (rest.drop digits)⟩
      else decimalNumeral cs
  | _ => decimalNumeral cs

/-- The name or keyword at the start of a text. -/
def wordLexeme (cs : List Char) : Lexeme :=
  let name := cs.takeWhile isLetterOrDigit
  let text := String.ofList name
  if keywords.contains text then
    ⟨some (if text = "null" then "null_literal" else text), namedKeywords.contains text,
      name.length⟩
  else ⟨some "identifier", true, name.length⟩

/-- The operator or separator at the start of a text. -/
def punctuationLexeme (cs : List Char) : Lexeme :=
  match punctuation.find? (·.toList.isPrefixOf cs) with
  | some mark => ⟨some mark, false, mark.length⟩
  | none => ⟨some "ERROR", true, 1⟩

/-- A token of which the opening part and the length of the rest are known; one
that is never closed fits nowhere. -/
def closedLexeme (type : String) (opening : Nat) (rest : Option Nat) : Lexeme :=
  match rest with
  | some length => ⟨some type, true, opening + length⟩
  | none => ⟨some "ERROR", true, opening⟩

/-- The token or the blanks at the start of a text. -/
def lexeme (cs : List Char) : Lexeme :=
  match cs with
  | '/' :: '/' :: rest =>
      ⟨some "line_comment", true, 2 + spanLength (· != '\n') rest⟩
  | '/' :: '*' :: rest => closedLexeme "block_comment" 2 (lengthThrough ['*', '/'] rest)
  | '"' :: '"' :: '"' :: rest =>
      closedLexeme "string_literal" 3 (lengthQuoted ['"', '"', '"'] rest)
  | '"' :: rest => closedLexeme "string_literal" 1 (lengthQuoted ['"'] rest)
  | '\'' :: rest => closedLexeme "character_literal" 1 (characterLength rest)
  | '.' :: c :: _ => if c.isDigit then decimalNumeral cs else punctuationLexeme cs
  | c :: rest =>
      if isGap c then ⟨none, false, spanLength isGap cs⟩
      else if isLetter c then wordLexeme cs
      else if c.isDigit then numeral cs
      else if c = '@' ∧ rest.takeWhile isLetterOrDigit = "interface".toList then
        ⟨some "@interface", false, 1 + "interface".length⟩
      else punctuationLexeme cs
  | [] => ⟨none, false, 0⟩

/-- The number of bytes of some characters. -/
def byteLength (cs : List Char) : Nat :=
  cs.foldr (fun c length => c.utf8Size + length) 0

/-- The tokens of a text that starts at a byte offset, comments included. -/
def lexFrom (start : Nat) : List Char → List Token
  | [] => []
  | c :: cs =>
      let seen := lexeme (c :: cs)
      let length := seen.length - 1
      let taken := c :: cs.take length
      let stop := start + byteLength taken
      let rest := lexFrom stop (cs.drop length)
      match seen.type with
      | none => rest
      | some type => ⟨type, String.ofList taken, start, stop, seen.named⟩ :: rest
termination_by cs => cs.length
decreasing_by
  simp only [List.length_cons, List.length_drop]
  omega

/-- The tokens of a program, comments included; a mark of the byte order at its
start is passed over. -/
def lex (text : String) : List Token :=
  match text.toList with
  | '\uFEFF' :: rest => lexFrom 3 rest
  | cs => lexFrom 0 cs

end Java
end JavaSketch
