import JavaSketch.Failure

/-!
# Constructs and their pseudocode

A construct is a piece of a program that pseudocode shows by a line of its own
at the start and, in most cases, another at the end.  It holds just the texts
those two lines are made of.

**Results.**
* `ofName_name`: a kind is known by its name.
-/

namespace JavaSketch

/-- The kinds of constructs that pseudocode shows. -/
inductive ConstructKind
  | methodSignature
  | forLoop
  | forEachLoop
  | conditional
  | switchBlock
  deriving DecidableEq, Repr

namespace ConstructKind

/-- The name of a kind. -/
def name : ConstructKind → String
  | methodSignature => "method_signature"
  | forLoop => "for_loop"
  | forEachLoop => "for_each_loop"
  | conditional => "conditional"
  | switchBlock => "switch_block"

/-- The kinds in the order in which they are written: where two constructs
share a line, the one of the later kind is what the line shows. -/
def order : List ConstructKind :=
  [methodSignature, forLoop, conditional, forEachLoop, switchBlock]

/-- The kind that has a name. -/
def ofName (name : String) : Except Failure ConstructKind :=
  match order.find? (·.name == name) with
  | some kind => .ok kind
  | none => .error (.unknownKind name)

theorem ofName_name (kind : ConstructKind) : ofName kind.name = .ok kind := by
  cases kind <;> rfl

end ConstructKind

/-- A method as its pseudocode announces it. -/
structure MethodSignature where
  /-- The name of the declaration the method belongs to. -/
  className : String
  /-- The name of the method. -/
  name : String
  /-- The names of the parameters, separated by commas. -/
  parameters : String
  /-- The access keyword, or nothing for access within the package. -/
  access : String
  /-- Whether the method returns nothing. -/
  isVoid : Bool
  /-- Whether the method has a body. -/
  hasBody : Bool
  /-- Whether the closing line is left alone even if there is a body. -/
  keepsClosingLine : Bool
  deriving DecidableEq, Repr

namespace MethodSignature

/-- The word that pseudocode has for a method. -/
def routineWord (method : MethodSignature) : String :=
  if method.isVoid then "procedure" else "function"

/-- Whether the closing line becomes an end marker. -/
def writesFooter (method : MethodSignature) : Bool :=
  method.hasBody && !method.keepsClosingLine

/-- The name under which the method is shown; overloads share it. -/
def label (method : MethodSignature) : String :=
  method.className ++ " " ++ method.name

/-- The line that announces the method. -/
def header (method : MethodSignature) : String :=
  let signature := method.routineWord ++ " " ++ method.name ++ "(" ++ method.parameters ++ ")"
  if method.access = "" then signature else method.access ++ " " ++ signature

/-- The line that ends the method, if it is to be written. -/
def footer (method : MethodSignature) : Option String :=
  if method.writesFooter then some ("end" ++ method.routineWord) else none

end MethodSignature

/-- A construct with the texts its pseudocode is made of. -/
inductive Construct
  | method (signature : MethodSignature)
  | forLoop (initializer bound counter : String)
  | forEachLoop (element iterable : String)
  | conditional (condition : String)
  | switchBlock (selector : String)
  deriving DecidableEq, Repr

namespace Construct

/-- The kind of a construct. -/
def kind : Construct → ConstructKind
  | method _ => .methodSignature
  | forLoop _ _ _ => .forLoop
  | forEachLoop _ _ => .forEachLoop
  | conditional _ => .conditional
  | switchBlock _ => .switchBlock

/-- The texts of a construct under the names they have in a report. -/
def fragments : Construct → List (String × String)
  | method signature => [("name", signature.name), ("parameters", signature.parameters)]
  | forLoop initializer bound counter =>
      [("init_expr", initializer), ("upper_bound", bound), ("loop_var", counter)]
  | forEachLoop element iterable => [("variable", element), ("iterable", iterable)]
  | conditional condition => [("condition", condition)]
  | switchBlock selector => [("selector", selector)]

/-- The pseudocode of the first line, without indentation. -/
def header : Construct → String
  | method signature => signature.header
  | forLoop initializer bound _ => "for " ++ initializer ++ " to " ++ bound
  | forEachLoop element iterable => "for " ++ element ++ " in " ++ iterable
  | conditional condition => "if " ++ condition ++ " then"
  | switchBlock selector => "switch " ++ selector

/-- The pseudocode of the last line, without indentation; a construct without it
keeps its closing line. -/
def footer : Construct → Option String
  | method signature => signature.footer
  | forLoop _ _ counter => some ("next " ++ counter)
  | forEachLoop element _ => some ("next " ++ element)
  | conditional _ => some "endif"
  | switchBlock _ => some "endswitch"

/-- The method that a construct is, if it is one. -/
def signature? : Construct → Option MethodSignature
  | method signature => some signature
  | _ => none

end Construct

end JavaSketch
