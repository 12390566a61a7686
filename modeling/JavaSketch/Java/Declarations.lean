import JavaSketch.Java.Statements

/-!
# The grammar of declarations

Packages, imports, modules, and the class-like declarations with their members.

**Rules.**
* The order of modifiers and which of them go together is not looked at.
* A word such as `record` or `sealed` is a keyword only where it leads on to a
  declaration.
* A method may stand outside of any class.
-/

namespace JavaSketch
namespace Java

open Grammar (Rule)
open Java.Symbol

/-- The exceptions that a method declares. -/
def throwsClause : JavaRule :=
  .node "throws" (.all ["throws", .separated "," type])

/-- A method, with its body or without. -/
def methodRule : JavaRule :=
  .node "method_declaration"
    (.all [.optional modifiers,
      .optional (.all [.field "type_parameters" typeParameters, annotations]),
      .field "type" unannotatedType, .field "name" identifier,
      .field "parameters" formalParameters, .optional (.field "dimensions" dimensions),
      .optional throwsClause, .any [.field "body" block, ";"]])

/-- The call of another constructor that a constructor may begin with. -/
def constructorCall : JavaRule :=
  .node "explicit_constructor_invocation"
    (.all
      [.any
        [.all [.optional (.field "type_arguments" typeArguments),
          .field "constructor" (.any ["this", "super"])],
          .all [.field "object" primary, ".",
            .optional (.field "type_arguments" typeArguments),
            .field "constructor" "super"]],
        .field "arguments" argumentList, ";"])

/-- A constructor. -/
def constructor : JavaRule :=
  .node "constructor_declaration"
    (.all [.optional modifiers, .optional (.field "type_parameters" typeParameters),
      .field "name" identifier, .field "parameters" formalParameters,
      .optional throwsClause,
      .field "body"
        (.node "constructor_body"
          (.all ["\x7b", .optional constructorCall, .many statement, "\x7d"]))])

/-- A constructor of a record that leaves out its parameters. -/
def compactConstructor : JavaRule :=
  .node "compact_constructor_declaration"
    (.all [.optional modifiers, .field "name" identifier, .field "body" block])

/-- The interfaces that a class implements. -/
def superInterfaces : JavaRule :=
  .node "super_interfaces" (.all ["implements", typeList])

/-- The classes that may extend a class. -/
def permits : JavaRule :=
  .node "permits" (.all [.word "permits", typeList])

/-- The members of a class. -/
def classBodyRule : JavaRule :=
  .node "class_body" (.all ["\x7b", .many classMember, "\x7d"])
where
  /-- A member of a class. -/
  classMember : JavaRule :=
    .any
      [";", block, .node "static_initializer" (.all ["static", block]), declaration,
        method, .node "field_declaration" declaredVariables, constructor,
        compactConstructor]

/-- A class. -/
def classDeclaration : JavaRule :=
  .node "class_declaration"
    (.all [.optional modifiers, "class", .field "name" identifier,
      .optional (.field "type_parameters" typeParameters),
      .optional (.field "superclass" (.node "superclass" (.all ["extends", type]))),
      .optional (.field "interfaces" superInterfaces),
      .optional (.field "permits" permits), .field "body" classBody])

/-- A record. -/
def recordDeclaration : JavaRule :=
  .node "record_declaration"
    (.all [.optional modifiers, .word "record", .field "name" identifier,
      .optional (.field "type_parameters" typeParameters),
      .field "parameters" formalParameters,
      .optional (.field "interfaces" superInterfaces), .field "body" classBody])

/-- A constant, or several. -/
def constantDeclaration : JavaRule :=
  .node "constant_declaration" declaredVariables

/-- An interface. -/
def interfaceDeclaration : JavaRule :=
  .node "interface_declaration"
    (.all [.optional modifiers, "interface", .field "name" identifier,
      .optional (.field "type_parameters" typeParameters),
      .optional (.node "extends_interfaces" (.all ["extends", typeList])),
      .optional (.field "permits" permits), .field "body" interfaceBody])
where
  /-- The members of an interface. -/
  interfaceBody : JavaRule :=
    .node "interface_body"
      (.all ["\x7b", .many (.any [";", declaration, method, constantDeclaration]), "\x7d"])

/-- A type of annotations. -/
def annotationDeclaration : JavaRule :=
  .node "annotation_type_declaration"
    (.all [.optional modifiers, "@interface", .field "name" identifier,
      .field "body" annotationBody])
where
  /-- An element, with the value it has if none is given. -/
  element : JavaRule :=
    .node "annotation_type_element_declaration"
      (.all [.optional modifiers, .field "type" unannotatedType, .field "name" identifier,
        "(", ")", .optional (.field "dimensions" dimensions),
        .optional (.all ["default", .field "value" elementValue]), ";"])
  /-- The elements and other members. -/
  annotationBody : JavaRule :=
    .node "annotation_type_body"
      (.all ["\x7b", .many (.any [";", declaration, element, constantDeclaration]),
        "\x7d"])

/-- An enumeration. -/
def enumDeclaration : JavaRule :=
  .node "enum_declaration"
    (.all [.optional modifiers, "enum", .field "name" identifier,
      .optional (.field "interfaces" superInterfaces), .field "body" enumBody])
where
  /-- A constant, which may have arguments and members. -/
  constant : JavaRule :=
    .node "enum_constant"
      (.all [.optional modifiers, .field "name" identifier,
        .optional (.field "arguments" argumentList), .optional (.field "body" classBody)])
  /-- The constants and, behind a semicolon, the members. -/
  enumBody : JavaRule :=
    .node "enum_body"
      (.all ["\x7b", .list constant, .optional ",",
        .optional
          (.node "enum_body_declarations" (.all [";", .many classBodyRule.classMember])),
        "\x7d"])

/-- The package of a program. -/
def packageDeclaration : JavaRule :=
  .node "package_declaration" (.all [annotations, "package", qualifiedName, ";"])

/-- The use of names from elsewhere. -/
def importDeclaration : JavaRule :=
  .node "import_declaration"
    (.all ["import", .optional "static", qualifiedName,
      .optional (.all [".", .node "asterisk" "*"]), ";"])

/-- A module with what it needs and offers. -/
def moduleDeclaration : JavaRule :=
  .node "module_declaration"
    (.all [annotations, .optional (.word "open"), .word "module",
      .field "name" qualifiedName, .field "body" moduleBody])
where
  /-- A directive that names packages, and perhaps the modules it is meant for. -/
  packageDirective (type keyword : String) : JavaRule :=
    .node type
      (.all [.word keyword, .field "package" qualifiedName,
        .optional (.all [.word "to", .separated "," (.field "modules" qualifiedName)]),
        ";"])
  /-- The directives of a module. -/
  moduleBody : JavaRule :=
    .node "module_body"
      (.all ["\x7b",
        .many (.any
          [.node "requires_module_directive"
            (.all [.word "requires",
              .many (.node "requires_modifier" (.any [.word "transitive", "static"])),
              .field "module" qualifiedName, ";"]),
            packageDirective "exports_module_directive" "exports",
            packageDirective "opens_module_directive" "opens",
            .node "uses_module_directive"
              (.all [.word "uses", .field "type" qualifiedName, ";"]),
            .node "provides_module_directive"
              (.all [.word "provides", .field "provided" qualifiedName, .word "with",
                .separated "," (.field "provider" qualifiedName), ";"])]),
        "\x7d"])

/-- Any declaration but that of a method or of variables. -/
def declarationRule : JavaRule :=
  .any
    [moduleDeclaration, packageDeclaration, importDeclaration, classDeclaration,
      recordDeclaration, interfaceDeclaration, annotationDeclaration, enumDeclaration]

/-- A whole program. -/
def program : JavaRule :=
  .many (.any [statement, method])

/-- The rules of the Java grammar. -/
def rules : Symbol → JavaRule
  | .metadata => annotationRule
  | .elementValue => elementValueRule
  | .modifiers => modifiersRule
  | .type => typeRule
  | .unannotatedType => unannotatedTypeRule
  | .typeArguments => typeArgumentsRule
  | .expression => expressionRule
  | .operation => operationRule
  | .unary => unaryRule
  | .primary => primaryRule
  | .parenthesized => parenthesizedRule
  | .argumentList => argumentListRule
  | .lambda => lambdaRule
  | .switchExpression => switchExpressionRule
  | .recordPattern => recordPatternRule
  | .variableInitializer => variableInitializerRule
  | .localVariable => localVariableRule
  | .formalParameters => formalParametersRule
  | .statement => statementRule
  | .block => blockRule
  | .declaration => declarationRule
  | .method => methodRule
  | .classBody => classBodyRule

end Java
end JavaSketch
