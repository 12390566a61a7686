import JavaSketch.Grammar.Rule

/-!
# The symbols of the Java grammar

The parts of a Java program that can contain each other.  Every other part is
written out in the rules that use it.
-/

namespace JavaSketch
namespace Java

open Grammar (Rule)

/-- A part of a Java program that can contain itself. -/
inductive Symbol
  | metadata
  | elementValue
  | modifiers
  | type
  | unannotatedType
  | typeArguments
  | expression
  | operation
  | unary
  | primary
  | parenthesized
  | argumentList
  | lambda
  | switchExpression
  | recordPattern
  | variableInitializer
  | localVariable
  | formalParameters
  | statement
  | block
  | declaration
  | method
  | classBody
  deriving DecidableEq, Repr

/-- A rule of the Java grammar. -/
abbrev JavaRule := Rule Symbol

/-- A name. -/
def identifier : JavaRule :=
  .token "identifier"

/-- A name that stands for a type. -/
def typeIdentifier : JavaRule :=
  .renamed "identifier" "type_identifier"

/-- A name with the names of packages or types before it. -/
def qualifiedName : JavaRule :=
  .grow identifier
    (.wrap "scoped_identifier" (some "scope") (.all [".", .field "name" identifier]))

end Java
end JavaSketch
