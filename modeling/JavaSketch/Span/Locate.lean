import JavaSketch.Diagnostic
import JavaSketch.Span
import JavaSketch.Syntax.Canonical

/-!
# Locating constructs in a syntax tree

Every construct of a source unit is located before any line is changed.  The
nodes that may be shown are listed first, kind by kind; each then becomes a span
or, if a part of it is missing, a diagnostic.

**Rules.**
* The methods of a class-like declaration are the direct members of its body;
  those of an enumeration are in the part after its constants.
* An annotated method is taken to start one line below its first, but never
  below its last; a method without a body covers only its first line.
* The bound and the counter of a loop are words of the canonical texts of its
  comparison and its initialiser.
* A switch counts only where its parent may hold a statement.

**Results.**
* `kind_of_mem_candidatesOf`: candidates are listed under their own kind.
-/

namespace JavaSketch

open Syntax (Node Site SourceUnit)

/-- The symbols of the declarations whose members are shown. -/
def classLikeTypes : List String :=
  ["class_declaration", "interface_declaration", "enum_declaration", "record_declaration"]

/-- The keywords that say who may use a method. -/
def accessKeywords : List String :=
  ["public", "protected", "private"]

/-- The symbols of annotations. -/
def annotationTypes : List String :=
  ["marker_annotation", "annotation"]

/-- The symbols of the nodes that may hold a switch as a statement. -/
def statementParents : List String :=
  ["program", "block", "constructor_body", "switch_block_statement_group", "switch_rule",
    "labeled_statement", "if_statement", "for_statement", "enhanced_for_statement",
    "while_statement", "do_statement"]

/-- A syntax node that may be shown as a construct. -/
inductive Candidate
  | method (declaration node : Node)
  | forLoop (node : Node)
  | forEachLoop (node : Node)
  | conditional (node : Node)
  | switchBlock (node : Node)

/-- What became of a candidate. -/
inductive Finding
  | located (span : Span)
  | skipped (diagnostic : Diagnostic)

namespace Syntax.Node

/-- The methods declared directly in a class-like declaration. -/
def memberMethods (declaration : Node) : List Node :=
  match declaration.childByField "body" with
  | none => []
  | some body =>
      let members :=
        if declaration.type = "enum_declaration" then
          match body.childOfType ["enum_body_declarations"] with
          | some part => part.namedChildren
          | none => []
        else body.namedChildren
      members.filter (·.type == "method_declaration")

/-- The child in a role, unless the parser supplied it. -/
def requiredChild (child : Option Node) (part : String) : Except MissingPart Node :=
  match child with
  | some node => if node.missing then .error (.absent part) else .ok node
  | none => .error (.absent part)

/-- The content of the condition, out of its parentheses. -/
def conditionContent (node : Node) : Option Node :=
  (node.childByField "condition").map unwrapParens

end Syntax.Node

namespace Syntax.Site

/-- Whether a switch stands where a statement may. -/
def isSwitchStatement (site : Site) : Bool :=
  site.node.type == "switch_statement"
    || site.parent.any (statementParents.contains ·.type)

end Syntax.Site

namespace Syntax.SourceUnit

/-- The names of the parameters of a method. -/
def parameterNames (unit : SourceUnit) (method : Node) : List String :=
  match method.childByField "parameters" with
  | none => []
  | some parameters =>
      parameters.namedChildren.filterMap fun parameter =>
        if parameter.type = "formal_parameter" then some (unit.declaredName parameter)
        else if parameter.type = "spread_parameter" then
          (parameter.childOfType ["variable_declarator"]).map unit.declaredName
        else none

/-- What pseudocode says about a method of a declaration. -/
def methodSignature (unit : SourceUnit) (declaration method : Node) : MethodSignature :=
  let modifiers := method.modifierTypes
  let hasBody := (method.childByField "body").isSome
  { className := unit.declaredName declaration
    name := unit.declaredName method
    parameters := Text.join "," (unit.parameterNames method)
    access := (modifiers.find? (accessKeywords.contains ·)).getD ""
    isVoid := (method.childByField "type").any (·.type == "void_type")
    hasBody := hasBody
    keepsClosingLine := !hasBody || modifiers.contains "default"
      || declaration.type == "interface_declaration" }

/-- The line on which a method is announced. -/
def methodHeaderLine (unit : SourceUnit) (method : Node) : Nat :=
  if method.modifierTypes.any (annotationTypes.contains ·) then
    min (unit.startLine method + 1) (unit.endLine method)
  else unit.startLine method

/-- The last line that a method covers. -/
def methodLastLine (unit : SourceUnit) (method : Node) : Nat :=
  if (method.childByField "body").isSome then unit.endLine method
  else unit.methodHeaderLine method

/-- The word at an index of a canonical text, whose words are separated by
single spaces. -/
def tokenAt (part text : String) (index : Nat) : Except MissingPart String :=
  match (Text.split ' ' text)[index]? with
  | some token => .ok token
  | none => .error (.tooFewTokens part text (index + 1))

/-- The counting loop at a node. -/
def forLoop (unit : SourceUnit) (node : Node) : Except MissingPart Construct := do
  let initializer ← Node.requiredChild (node.childByField "init") "for initializer"
  let comparison ← Node.requiredChild (node.childByField "condition") "for condition"
  let initializerText := unit.canonicalText initializer
  let bound ← tokenAt "comparison" (unit.canonicalText comparison) 2
  let counter ← tokenAt "initializer" initializerText 1
  return .forLoop initializerText bound counter

/-- The loop over a collection at a node. -/
def forEachLoop (unit : SourceUnit) (node : Node) : Except MissingPart Construct := do
  let element ← Node.requiredChild (node.childByField "name") "loop variable"
  let iterable ← Node.requiredChild (node.childByField "value") "iterable"
  return .forEachLoop (unit.nodeText element) (unit.canonicalText iterable)

/-- The conditional at a node. -/
def conditional (unit : SourceUnit) (node : Node) : Except MissingPart Construct := do
  let condition ← Node.requiredChild node.conditionContent "if condition"
  return .conditional (unit.canonicalText condition)

/-- The switch at a node. -/
def switchBlock (unit : SourceUnit) (node : Node) : Except MissingPart Construct := do
  let selector ← Node.requiredChild node.conditionContent "switch selector"
  return .switchBlock (unit.canonicalText selector)

end Syntax.SourceUnit

namespace Candidate

/-- The node that may be shown. -/
def node : Candidate → Node
  | method _ node => node
  | forLoop node => node
  | forEachLoop node => node
  | conditional node => node
  | switchBlock node => node

/-- The kind of construct that a candidate may become. -/
def kind : Candidate → ConstructKind
  | method _ _ => .methodSignature
  | forLoop _ => .forLoop
  | forEachLoop _ => .forEachLoop
  | conditional _ => .conditional
  | switchBlock _ => .switchBlock

/-- The construct that a candidate makes, unless a part is missing. -/
def construct (unit : SourceUnit) : Candidate → Except MissingPart Construct
  | method declaration node => .ok (.method (unit.methodSignature declaration node))
  | forLoop node => unit.forLoop node
  | forEachLoop node => unit.forEachLoop node
  | conditional node => unit.conditional node
  | switchBlock node => unit.switchBlock node

/-- The first line that a candidate covers. -/
def firstLine (unit : SourceUnit) : Candidate → Nat
  | method _ node => unit.methodHeaderLine node
  | candidate => unit.startLine candidate.node

/-- The last line that a candidate covers. -/
def lastLine (unit : SourceUnit) : Candidate → Nat
  | method _ node => unit.methodLastLine node
  | candidate => unit.endLine candidate.node

/-- Turns a candidate into a span or a diagnostic. -/
def locate (unit : SourceUnit) (candidate : Candidate) : Except Failure Finding :=
  match candidate.construct unit with
  | .ok construct =>
      (Span.ofLines construct (candidate.firstLine unit) (candidate.lastLine unit)).map
        .located
  | .error cause =>
      .ok (.skipped (.unrendered candidate.node.type (unit.startLine candidate.node) cause))

end Candidate

namespace Finding

/-- The span that was found, if one was. -/
def span? : Finding → Option Span
  | located span => some span
  | skipped _ => none

/-- The report on a candidate that was passed over, if it was. -/
def diagnostic? : Finding → Option Diagnostic
  | located _ => none
  | skipped diagnostic => some diagnostic

end Finding

namespace Syntax.SourceUnit

/-- The nodes that may be shown as constructs of one kind, in the order in which
they are looked at. -/
def candidatesOf (unit : SourceUnit) : ConstructKind → List Candidate
  | .methodSignature =>
      (unit.root.findAll classLikeTypes).flatMap fun declaration =>
        declaration.memberMethods.map (.method declaration)
  | .forLoop => (unit.root.findAll ["for_statement"]).map .forLoop
  | .forEachLoop => (unit.root.findAll ["enhanced_for_statement"]).map .forEachLoop
  | .conditional => (unit.root.findAll ["if_statement"]).map .conditional
  | .switchBlock =>
      ((unit.root.findSites ["switch_statement", "switch_expression"]).filter
        (·.isSwitchStatement)).map (.switchBlock ·.node)

/-- The nodes that may be shown, in the order in which spans are written. -/
def candidates (unit : SourceUnit) : List Candidate :=
  ConstructKind.order.flatMap unit.candidatesOf

/-- What becomes of the nodes that may be shown. -/
def findings (unit : SourceUnit) : Except Failure (List Finding) :=
  unit.candidates.mapM (·.locate unit)

theorem kind_of_mem_candidatesOf {unit : SourceUnit} {kind : ConstructKind}
    {candidate : Candidate} (h : candidate ∈ unit.candidatesOf kind) :
    candidate.kind = kind := by
  cases kind <;> simp only [candidatesOf, List.mem_flatMap, List.mem_map] at h
  · obtain ⟨_, _, _, _, rfl⟩ := h
    rfl
  all_goals
    obtain ⟨_, _, rfl⟩ := h
    rfl

end Syntax.SourceUnit

/-- The spans of a source unit and the reports on what was passed over. -/
structure Located where
  /-- The spans, in the order in which they are written. -/
  spans : List Span
  /-- The reports, in the order in which candidates were looked at. -/
  diagnostics : List Diagnostic
  deriving DecidableEq

namespace Syntax.SourceUnit

/-- Locates the constructs of a source unit. -/
def locate (unit : SourceUnit) : Except Failure Located := do
  let findings ← unit.findings
  return ⟨findings.filterMap (·.span?), findings.filterMap (·.diagnostic?)⟩

end Syntax.SourceUnit

end JavaSketch
