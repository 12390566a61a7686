import JavaSketch.Construct

/-!
# Constructs that are passed over

Not every piece of a program can be shown: a loop may lack a part its header is
made of, and a span may lie outside the lines it is applied to.  Such a piece
leaves its lines as they are and a diagnostic says why.
-/

namespace JavaSketch

/-- A part of a construct without which it cannot be shown. -/
inductive MissingPart
  /-- The part is not there. -/
  | absent (part : String)
  /-- The text of the part has too few words separated by single spaces. -/
  | tooFewTokens (part text : String) (wanted : Nat)
  deriving DecidableEq, Repr

namespace MissingPart

/-- A missing part in words. -/
def message : MissingPart → String
  | absent part => "missing " ++ part
  | tooFewTokens part text wanted =>
      part ++ " " ++ Text.quoted text ++ " has no token #" ++ toString wanted

end MissingPart

/-- A construct that was passed over, and why. -/
inductive Diagnostic
  /-- A syntax node that does not make a construct. -/
  | unrendered (type : String) (line : Nat) (cause : MissingPart)
  /-- A span with a line outside the buffer. -/
  | outside (kind : ConstructKind) (first last line : Int) (size : Nat)
  deriving DecidableEq, Repr

namespace Diagnostic

/-- A diagnostic in words. -/
def message : Diagnostic → String
  | unrendered type line cause =>
      "skipped " ++ type ++ " at line " ++ toString line ++ ": " ++ cause.message
  | outside kind first last line size =>
      "skipped " ++ kind.name ++ " span " ++ toString first ++ "-" ++ toString last
        ++ ": line " ++ toString line ++ " outside 1.." ++ toString size

end Diagnostic

end JavaSketch
