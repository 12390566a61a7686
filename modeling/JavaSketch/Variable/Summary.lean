import JavaSketch.Syntax.SourceUnit
import JavaSketch.Text.Blank

/-!
# Summary of variables

Every class and every interface that declares a field is summarised by the
variables declared anywhere in it: fields with their visibility and whether
they are static and final, all others as belonging to a method.

**Rules.**
* The words of a field statement go to the name of its first declarator, and to
  every variable of that name in the class; a later field of the same name
  replaces them.
* A declarator counts where its parent states a type; the loop variable of a
  loop over a collection counts too.
* A type is shown with single spaces, followed by the dimensions that the
  declarator adds.
-/

namespace JavaSketch

open Syntax (Node Site SourceUnit)

/-- A variable as the summary shows it. -/
structure VariableRecord where
  /-- The name of the variable. -/
  name : String
  /-- The type it is declared with. -/
  declaredType : String
  /-- The words for where it belongs. -/
  scope : String
  deriving DecidableEq, Repr

/-- The variables of one declaration. -/
structure ClassSummary where
  /-- The name of the declaration. -/
  className : String
  /-- Its variables in source order. -/
  records : List VariableRecord
  deriving DecidableEq, Repr

/-- The scope of a variable that is no field. -/
def methodScope : String :=
  "Method scope"

/-- The symbols of field statements. -/
def fieldTypes : List String :=
  ["field_declaration", "constant_declaration"]

/-- The symbols of the declarations that are summarised. -/
def summarizedTypes : List String :=
  ["class_declaration", "interface_declaration"]

/-- The symbols of the nodes that declare a variable. -/
def variableTypes : List String :=
  ["variable_declarator", "enhanced_for_statement"]

namespace Syntax.Node

/-- The words for the scope of the fields of a statement. -/
def fieldScope (field : Node) : String :=
  let keywords := field.modifierTypes
  Text.join " "
    [if keywords.contains "public" then "Public" else "Private",
      if keywords.contains "static" then "Static" else "Non-static",
      if keywords.contains "final" then "Final" else "Non-final"]

end Syntax.Node

namespace Syntax.SourceUnit

/-- The type a node states, with single spaces. -/
def statedType (unit : SourceUnit) (node : Node) : String :=
  Text.collapseBlanks (unit.textOf (node.childByField "type"))

/-- The scopes of the fields of a declaration by name, the latest first. -/
def fieldScopes (unit : SourceUnit) (declaration : Node) : List (String × String) :=
  ((declaration.findAll fieldTypes).filterMap fun field =>
    (field.childByField "declarator").map fun declarator =>
      (unit.declaredName declarator, field.fieldScope)).reverse

/-- The type of the variable a node declares; nothing if it does not count. -/
def variableType (unit : SourceUnit) (site : Site) : Option String :=
  if site.node.type = "enhanced_for_statement" then some (unit.statedType site.node)
  else
    match site.parent with
    | none => none
    | some owner =>
        if (owner.childByField "type").isSome then
          some (unit.statedType owner ++ unit.textOf (site.node.childByField "dimensions"))
        else none

/-- The variables of a declaration. -/
def summarize (unit : SourceUnit) (declaration : Node) : ClassSummary :=
  let scopes := unit.fieldScopes declaration
  let records := (declaration.findSites variableTypes).filterMap fun site =>
    (unit.variableType site).map fun declaredType =>
      let name := unit.declaredName site.node
      { name := name
        declaredType := declaredType
        scope := (scopes.lookup name).getD methodScope : VariableRecord }
  ⟨unit.declaredName declaration, records⟩

/-- The summaries of the declarations that declare a field, nested ones too. -/
def summaries (unit : SourceUnit) : List ClassSummary :=
  ((unit.root.findAll summarizedTypes).filter
    fun declaration => !(declaration.findAll fieldTypes).isEmpty).map unit.summarize

end Syntax.SourceUnit

end JavaSketch
