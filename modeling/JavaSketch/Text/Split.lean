/-!
# Cutting text at single characters

Lines are cut at line feeds, paths at slashes and loop tokens at spaces, always
by the same rule: `n` separators give `n + 1` pieces, and a piece may be empty.

**Results.**
* `pieces_ne_nil`: there is always a first piece.
* `joinWith_pieces`: the pieces, joined by the separator, are the text again.
-/

namespace JavaSketch
namespace Text

/-- The pieces of `cs` between the characters that satisfy `sep`. -/
def piecesWhere (sep : Char → Bool) : List Char → List (List Char)
  | [] => [[]]
  | c :: cs =>
      if sep c then [] :: piecesWhere sep cs
      else
        match piecesWhere sep cs with
        | [] => [[c]]
        | piece :: rest => (c :: piece) :: rest

/-- The pieces of `cs` between the occurrences of one character. -/
def pieces (sep : Char) (cs : List Char) : List (List Char) :=
  piecesWhere (· == sep) cs

/-- The pieces of a string between the occurrences of one character. -/
def split (sep : Char) (text : String) : List String :=
  (pieces sep text.toList).map String.ofList

/-- Pieces put together again with one separator between neighbours. -/
def joinWith (sep : Char) : List (List Char) → List Char
  | [] => []
  | [piece] => piece
  | piece :: next :: rest => piece ++ sep :: joinWith sep (next :: rest)

/-- Strings put together with one separating string between neighbours. -/
def join (sep : String) : List String → String
  | [] => ""
  | [piece] => piece
  | piece :: next :: rest => piece ++ sep ++ join sep (next :: rest)

theorem piecesWhere_ne_nil (sep : Char → Bool) (cs : List Char) :
    piecesWhere sep cs ≠ [] := by
  induction cs with
  | nil => simp [piecesWhere]
  | cons c cs ih =>
      unfold piecesWhere
      split
      · simp
      · split <;> simp

theorem pieces_ne_nil (sep : Char) (cs : List Char) : pieces sep cs ≠ [] :=
  piecesWhere_ne_nil _ cs

theorem pieces_nil (sep : Char) : pieces sep [] = [[]] := rfl

theorem pieces_cons_self (sep : Char) (cs : List Char) :
    pieces sep (sep :: cs) = [] :: pieces sep cs := by
  simp [pieces, piecesWhere]

theorem joinWith_cons_cons (sep c : Char) (piece : List Char)
    (rest : List (List Char)) :
    joinWith sep ((c :: piece) :: rest) = c :: joinWith sep (piece :: rest) := by
  cases rest <;> simp [joinWith]

theorem joinWith_pieces (sep : Char) (cs : List Char) :
    joinWith sep (pieces sep cs) = cs := by
  induction cs with
  | nil => rfl
  | cons c cs ih =>
      by_cases h : c = sep
      · subst h
        rw [pieces_cons_self]
        cases hp : pieces c cs with
        | nil => exact absurd hp (pieces_ne_nil c cs)
        | cons piece rest =>
            rw [hp] at ih
            simp [joinWith, ih]
      · unfold pieces piecesWhere
        simp only [beq_iff_eq, h, if_false]
        change joinWith sep (match pieces sep cs with
          | [] => [[c]]
          | piece :: rest => (c :: piece) :: rest) = c :: cs
        cases hp : pieces sep cs with
        | nil => exact absurd hp (pieces_ne_nil sep cs)
        | cons piece rest =>
            rw [hp] at ih
            simp only [joinWith_cons_cons, ih]

end Text
end JavaSketch
