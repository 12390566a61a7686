import JavaSketch.Syntax.Traversal
import JavaSketch.Text.Line
import JavaSketch.Text.Utf8

/-!
# A source text with its syntax tree

A source unit pairs a normalised text with a tree over its bytes.  The text of a
node is what its byte range holds, and its lines are counted by the line feeds
before its two ends, starting from one.

A tree has an error when it holds a node of the symbol `ERROR` or a missing
node; the error is reported at the first of them in document order.

**Results.**
* `lineAt_pos`: lines are counted from one.
* `lineAt_mono`: a later offset is on the same line or on a later one.
-/

namespace JavaSketch
namespace Syntax

/-- A source text and the tree that was read from it. -/
structure SourceUnit where
  /-- The name messages use for the text. -/
  path : String
  /-- The text; LF is its only line end. -/
  text : String
  /-- The tree over the UTF-8 bytes of the text. -/
  root : Node
  deriving Inhabited

namespace SourceUnit

/-- The bytes that offsets count. -/
def bytes (unit : SourceUnit) : ByteArray :=
  unit.text.toUTF8

/-- The text between two byte offsets, without characters cut by either. -/
def textBetween (unit : SourceUnit) (start stop : Nat) : String :=
  Text.decodeUtf8 (unit.bytes.extract start stop)

/-- The source text of a node. -/
def nodeText (unit : SourceUnit) (node : Node) : String :=
  unit.textBetween node.start node.stop

/-- The source text of a node that may be absent; an absent one has none. -/
def textOf (unit : SourceUnit) (node : Option Node) : String :=
  match node with
  | some node => unit.nodeText node
  | none => ""

/-- The source text of the child that names a declaration. -/
def declaredName (unit : SourceUnit) (declaration : Node) : String :=
  unit.textOf (declaration.childByField "name")

/-- The line that a byte offset is on: one more than the line feeds before it. -/
def lineAt (unit : SourceUnit) (offset : Nat) : Nat :=
  (unit.bytes.extract 0 offset).data.toList.count 0x0A + 1

/-- The line a node starts on. -/
def startLine (unit : SourceUnit) (node : Node) : Nat :=
  unit.lineAt node.start

/-- The line on which the byte after a node would be. -/
def endLine (unit : SourceUnit) (node : Node) : Nat :=
  unit.lineAt node.stop

theorem lineAt_pos (unit : SourceUnit) (offset : Nat) : 0 < unit.lineAt offset :=
  Nat.succ_pos _

theorem lineAt_eq (unit : SourceUnit) (offset : Nat) :
    unit.lineAt offset = (unit.bytes.data.toList.take offset).count 0x0A + 1 := by
  simp [lineAt, ByteArray.data_extract, Array.toList_extract, List.extract]

theorem lineAt_mono (unit : SourceUnit) {first second : Nat} (h : first ≤ second) :
    unit.lineAt first ≤ unit.lineAt second := by
  rw [lineAt_eq, lineAt_eq]
  have := (List.take_sublist_take_left (l := unit.bytes.data.toList) h).count_le 0x0A
  omega

end SourceUnit

namespace Node

/-- Whether a node itself marks an error. -/
def isError (node : Node) : Bool :=
  node.type == "ERROR" || node.missing

mutual

/-- Whether some node of a tree marks an error. -/
def hasError : Node → Bool
  | ⟨type, start, stop, named, missing, field, children⟩ =>
      isError ⟨type, start, stop, named, missing, field, children⟩ || anyHasError children

/-- Whether some node of some trees marks an error. -/
def anyHasError : List Node → Bool
  | [] => false
  | child :: rest => child.hasError || anyHasError rest

end

mutual

/-- The first node that marks an error, looked for only in children that have
one. -/
def firstError : Node → Option Node
  | ⟨type, start, stop, named, missing, field, children⟩ =>
      if isError ⟨type, start, stop, named, missing, field, children⟩ then
        some ⟨type, start, stop, named, missing, field, children⟩
      else firstErrorAmong children

/-- The first node that marks an error in some trees. -/
def firstErrorAmong : List Node → Option Node
  | [] => none
  | child :: rest =>
      if child.hasError then
        match child.firstError with
        | some node => some node
        | none => firstErrorAmong rest
      else firstErrorAmong rest

end

end Node

end Syntax
end JavaSketch
