import JavaSketch.Java.Types

/-!
# The grammar of expressions

From the loosest to the tightest: assignments, conditional expressions, the
binary operators level by level, prefix operators and casts, and the expressions
that calls, member accesses and indices are attached to.

**Rules.**
* What stands on the left of an assignment is a name, a member or an element.
* Parentheses around a name are a cast only where an operand follows that cannot
  be the right side of a sum.
-/

namespace JavaSketch
namespace Java

open Grammar (Rule)
open Java.Symbol

/-- Expressions in parentheses, separated by commas. -/
def argumentListRule : JavaRule :=
  .node "argument_list" (.all ["(", .list expression, ")"])

/-- An expression in parentheses. -/
def parenthesizedRule : JavaRule :=
  .node "parenthesized_expression" (.all ["(", expression, ")"])

/-- A function that is written out as a value. -/
def lambdaRule : JavaRule :=
  .node "lambda_expression"
    (.all [.field "parameters" (.any [identifier, names, formalParameters]), "->",
      .field "body" (.any [block, expression])])
where
  /-- Parameters without types. -/
  names : JavaRule :=
    .node "inferred_parameters" (.all ["(", .separated "," identifier, ")"])

/-- The operators that assign. -/
def assignmentOperator : JavaRule :=
  .any ["=", "+=", "-=", "*=", "/=", "&=", "|=", "^=", "%=", "<<=",
    .glued ">>>=" [">", ">", ">="], .glued ">>=" [">", ">="]]

/-- Any expression. -/
def expressionRule : JavaRule :=
  .any [lambda,
    .grow operation
      (.all [.leftIs ["identifier", "field_access", "array_access"],
        .wrap "assignment_expression" (some "left")
          (.all [.field "operator" assignmentOperator, .field "right" expression])])]

/-- A level of binary operators over the operands of the next level. -/
def binaryLevel (operators : List JavaRule) (operand : JavaRule) : JavaRule :=
  .grow operand
    (.wrap "binary_expression" (some "left")
      (.all [.field "operator" (.any operators), .field "right" operand]))

/-- Comparisons by size and tests of types, over the operands of the next level. -/
def relationalLevel (operand : JavaRule) : JavaRule :=
  .grow operand
    (.any
      [.wrap "binary_expression" (some "left")
        (.all [.field "operator" (.any ["<=", ">=", "<", ">"]), .field "right" operand]),
        .wrap "instanceof_expression" (some "left")
          (.all ["instanceof", .optional "final",
            .any [.field "pattern" recordPattern,
              .all [.field "right" type, .optional (.field "name" identifier)]]])])

/-- The operators that shift. -/
def shiftOperators : List JavaRule :=
  ["<<", .glued ">>>" [">", ">", ">"], .glued ">>" [">", ">"]]

/-- Operands joined by binary operators. -/
def binaryOperation : JavaRule :=
  binaryLevel ["||"] <| binaryLevel ["&&"] <| binaryLevel ["|"] <| binaryLevel ["^"] <|
    binaryLevel ["&"] <| binaryLevel ["==", "!="] <| relationalLevel <|
    binaryLevel shiftOperators <| binaryLevel ["+", "-"] <|
    binaryLevel ["*", "/", "%"] unary

/-- An expression that is neither an assignment nor a lambda. -/
def operationRule : JavaRule :=
  .grow binaryOperation
    (.wrap "ternary_expression" (some "condition")
      (.all ["?", .field "consequence" expression, ":", .field "alternative" expression]))

/-- The literals. -/
def literal : JavaRule :=
  .any ["decimal_integer_literal", "hex_integer_literal", "octal_integer_literal",
    "binary_integer_literal", "decimal_floating_point_literal",
    "hex_floating_point_literal", "true", "false", "character_literal", "string_literal",
    "null_literal"]

/-- What the operand of a cast to a reference type can begin with. -/
def castOperandStart : JavaRule :=
  .any [literal, identifier, "(", "!", "~", "this", "super", "new", "switch", basicType]

/-- A cast. -/
def cast : JavaRule :=
  .node "cast_expression"
    (.any
      [.all ["(", .field "type" basicType, ")", .field "value" unary],
        .all ["(", .separated "&" (.field "type" type), ")", .ahead castOperandStart,
          .field "value" (.any [lambda, unary])]])

/-- An operand with the operators before or behind it. -/
def unaryRule : JavaRule :=
  .any
    [.node "unary_expression"
      (.all [.field "operator" (.any ["+", "-", "!", "~"]), .field "operand" unary]),
      .node "update_expression" (.all [.any ["++", "--"], unary]),
      cast,
      .grow primary (.wrap "update_expression" none (.any ["++", "--"]))]

/-- A type that stands for itself as a value. -/
def classLiteral : JavaRule :=
  .node "class_literal" (.all [unannotatedType, ".", "class"])

/-- The part of a method reference that names the method. -/
def referencedMethod : JavaRule :=
  .all ["::", .optional typeArguments, .any ["new", identifier]]

/-- An array that is made with lengths or with elements. -/
def arrayCreation : JavaRule :=
  .node "array_creation_expression"
    (.all ["new", annotations, .field "type" simpleType,
      .any
        [.all
          [.some (.field "dimensions"
            (.node "dimensions_expr" (.all [annotations, "[", expression, "]"]))),
            .optional (.field "dimensions" dimensions)],
          .all [.field "dimensions" dimensions, .field "value" variableInitializer]]])

/-- An object that is made, with the members its class may be given. -/
def creation : JavaRule :=
  .all ["new", annotations, .optional (.all [typeArguments, annotations]),
    .field "type" simpleType, .field "arguments" argumentList, .optional classBody]

/-- What calls, member accesses and indices are attached to. -/
def primaryBase : JavaRule :=
  .any
    [literal, classLiteral,
      .node "method_reference" (.all [unannotatedType, referencedMethod]),
      .node "method_invocation"
        (.all [.field "name" identifier, .field "arguments" argumentList]),
      identifier, "this", .all ["super", .ahead (.any [".", "::"])], parenthesized,
      arrayCreation, .node "object_creation_expression" creation, switchExpression]

/-- A call, a member access, an index or another part behind an expression. -/
def primaryStep : JavaRule :=
  .any
    [.wrap "object_creation_expression" none (.all [".", creation]),
      .wrap "method_invocation" (some "object")
        (.all [".", .optional (.all ["super", "."]),
          .optional (.field "type_arguments" typeArguments), .field "name" identifier,
          .field "arguments" argumentList]),
      .wrap "field_access" (some "object")
        (.all [.optional (.all [".", "super"]), ".",
          .field "field" (.any [identifier, "this"])]),
      .wrap "array_access" (some "array") (.all ["[", .field "index" expression, "]"]),
      .wrap "method_reference" none referencedMethod]

/-- An expression with whatever is attached behind it. -/
def primaryRule : JavaRule :=
  .grow primaryBase primaryStep

/-- Initial values in braces, or one initial value. -/
def variableInitializerRule : JavaRule :=
  .any
    [.node "array_initializer"
      (.all ["\x7b", .list variableInitializer, .optional ",", "\x7d"]),
      expression]

/-- A pattern that takes a record apart. -/
def recordPatternRule : JavaRule :=
  .node "record_pattern"
    (.all [.grow identifier (.wrap "generic_type" none typeArguments),
      .node "record_pattern_body" (.all ["(", .list component, ")"])])
where
  /-- A part of a record. -/
  component : JavaRule :=
    .any [recordPattern,
      .node "record_pattern_component" (.all [unannotatedType, identifier])]

end Java
end JavaSketch
