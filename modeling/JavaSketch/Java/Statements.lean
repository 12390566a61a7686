import JavaSketch.Java.Expressions

/-!
# The grammar of statements

Statements, and the switch, which is the same whether it stands for a statement
or for a value.

**Rules.**
* A switch that begins a statement is a statement by itself, unless a semicolon
  follows: then it is an expression that stands for a statement.
* A declaration of variables is preferred to an expression.
* The word `default` may be one of the values of a case.
-/

namespace JavaSketch
namespace Java

open Grammar (Rule)
open Java.Symbol

/-- Statements in braces. -/
def blockRule : JavaRule :=
  .node "block" (.all ["\x7b", .many statement, "\x7d"])

/-- A variable with its initial value. -/
def variableDeclarator : JavaRule :=
  .node "variable_declarator"
    (.all [variableName, .optional (.all ["=", .field "value" variableInitializer])])

/-- A type, variables of it, and the end of their declaration. -/
def declaredVariables : JavaRule :=
  .all [.optional modifiers, .field "type" unannotatedType,
    .separated "," (.field "declarator" variableDeclarator), ";"]

/-- A declaration of variables within a method. -/
def localVariableRule : JavaRule :=
  .node "local_variable_declaration" declaredVariables

/-- An expression that stands for a statement. -/
def expressionStatement : JavaRule :=
  .node "expression_statement" (.all [expression, ";"])

/-- A statement that throws an exception. -/
def throwStatement : JavaRule :=
  .node "throw_statement" (.all ["throw", expression, ";"])

/-- A pattern that names a value of some type. -/
def typePattern : JavaRule :=
  .node "type_pattern" (.all [unannotatedType, identifier])

/-- What a branch of a switch applies to. -/
def switchLabel : JavaRule :=
  .node "switch_label"
    (.any
      [.all ["case",
        .any [.node "pattern" (.any [typePattern, recordPattern]),
          .separated "," (.any [operation, .renamed "default" "identifier"])],
        .optional (.node "guard" (.all [.word "when", operation]))],
        "default"])

/-- A branch of a switch that ends by itself. -/
def switchBranch : JavaRule :=
  .node "switch_rule"
    (.all [switchLabel, "->", .any [block, throwStatement, expressionStatement]])

/-- A branch of a switch that goes on with the next. -/
def switchGroup : JavaRule :=
  .node "switch_block_statement_group" (.all [switchLabel, ":", .many statement])

/-- The branches of a switch. -/
def switchBlock : JavaRule :=
  .node "switch_block"
    (.any [.all ["\x7b", .many switchBranch, "\x7d"],
      .all ["\x7b", .many switchGroup, "\x7d"]])

/-- A switch. -/
def switchExpressionRule : JavaRule :=
  .node "switch_expression"
    (.all ["switch", .field "condition" parenthesized, .field "body" switchBlock])

/-- A switch that begins a statement. -/
def switchStatement : JavaRule :=
  .grow switchExpression
    (.all [.leftIs ["switch_expression"], .wrap "expression_statement" none ";"])

/-- A statement with a name to leave it by. -/
def labeledStatement : JavaRule :=
  .node "labeled_statement" (.all [identifier, ":", statement])

/-- A conditional. -/
def ifStatement : JavaRule :=
  .node "if_statement"
    (.all ["if", .field "condition" parenthesized, .field "consequence" statement,
      .optional (.all ["else", .field "alternative" statement])])

/-- A loop that tests before each round. -/
def whileStatement : JavaRule :=
  .node "while_statement"
    (.all ["while", .field "condition" parenthesized, .field "body" statement])

/-- A loop that tests after each round. -/
def doStatement : JavaRule :=
  .node "do_statement"
    (.all ["do", .field "body" statement, "while", .field "condition" parenthesized, ";"])

/-- A counting loop. -/
def forStatement : JavaRule :=
  .node "for_statement"
    (.all ["for", "(",
      .any [.field "init" localVariable, .all [.list (.field "init" expression), ";"]],
      .optional (.field "condition" expression), ";", .list (.field "update" expression),
      ")", .field "body" statement])

/-- A loop over a collection. -/
def forEachStatement : JavaRule :=
  .node "enhanced_for_statement"
    (.all ["for", "(", .optional modifiers, .field "type" unannotatedType, variableName,
      ":", .field "value" expression, ")", .field "body" statement])

/-- What is done about some exceptions. -/
def catchClause : JavaRule :=
  .node "catch_clause"
    (.all ["catch", "(",
      .node "catch_formal_parameter"
        (.all [.optional modifiers,
          .node "catch_type" (.separated "|" unannotatedType), variableName]),
      ")", .field "body" block])

/-- What is done in any case. -/
def finallyClause : JavaRule :=
  .node "finally_clause" (.all ["finally", block])

/-- Something that is closed in the end. -/
def resource : JavaRule :=
  .node "resource"
    (.any
      [.all [.optional modifiers, .field "type" unannotatedType, variableName, "=",
        .field "value" expression],
        primary])

/-- The resources of a statement. -/
def resources : JavaRule :=
  .node "resource_specification"
    (.all ["(", .separated ";" resource, .optional ";", ")"])

/-- A statement that takes care of exceptions. -/
def tryStatement : JavaRule :=
  .any
    [.node "try_with_resources_statement"
      (.all ["try", .field "resources" resources, .field "body" block, .many catchClause,
        .optional finallyClause]),
      .node "try_statement"
        (.all ["try", .field "body" block,
          .any [.all [.some catchClause, .optional finallyClause], finallyClause]])]

/-- A statement that goes somewhere else, or gives up or gives a value. -/
def jumpStatement : JavaRule :=
  .any
    [.node "return_statement" (.all ["return", .optional expression, ";"]),
      .node "break_statement" (.all ["break", .optional identifier, ";"]),
      .node "continue_statement" (.all ["continue", .optional identifier, ";"]),
      throwStatement,
      .node "yield_statement" (.all [.word "yield", expression, ";"])]

/-- A statement that tests what should be true. -/
def assertStatement : JavaRule :=
  .node "assert_statement"
    (.all ["assert", expression, .optional (.all [":", expression]), ";"])

/-- A statement that holds a lock. -/
def synchronizedStatement : JavaRule :=
  .node "synchronized_statement"
    (.all ["synchronized", parenthesized, .field "body" block])

/-- Any statement. -/
def statementRule : JavaRule :=
  .any
    [block, ";", labeledStatement, ifStatement, whileStatement, forEachStatement,
      forStatement, doStatement, switchStatement, tryStatement, jumpStatement,
      assertStatement, synchronizedStatement, declaration, localVariable,
      expressionStatement]

end Java
end JavaSketch
