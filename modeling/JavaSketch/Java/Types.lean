import JavaSketch.Java.Symbol

/-!
# The grammar of types and annotations

Types with their arguments and dimensions, the annotations that may stand before
them, and the modifiers of declarations.
-/

namespace JavaSketch
namespace Java

open Grammar (Rule)
open Java.Symbol

/-- The value of an element of an annotation. -/
def elementValueRule : JavaRule :=
  .any [metadata,
    .node "element_value_array_initializer"
      (.all ["\x7b", .list elementValue, .optional ",", "\x7d"]),
    expression]

/-- An element of an annotation with its value. -/
def elementPair : JavaRule :=
  .node "element_value_pair"
    (.all [.field "key" identifier, "=", .field "value" elementValue])

/-- The elements of an annotation. -/
def annotationArguments : JavaRule :=
  .node "annotation_argument_list"
    (.any [.all ["(", .list elementPair, ")"], .all ["(", elementValue, ")"]])

/-- An annotation, with elements or without. -/
def annotationRule : JavaRule :=
  .any
    [.node "annotation"
      (.all ["@", .field "name" qualifiedName, .field "arguments" annotationArguments]),
      .node "marker_annotation" (.all ["@", .field "name" qualifiedName])]

/-- Any number of annotations. -/
def annotations : JavaRule :=
  .many metadata

/-- The modifiers of a declaration. -/
def modifiersRule : JavaRule :=
  .node "modifiers" <| .some <| .any
    [metadata, "public", "protected", "private", "abstract", "static", "final",
      "strictfp", "default", "synchronized", "native", "transient", "volatile",
      .word "sealed", .glued "non-sealed" ["non", "-", "sealed"]]

/-- The dimensions of an array. -/
def dimensions : JavaRule :=
  .node "dimensions" (.some (.all [annotations, "[", "]"]))

/-- A type that is a keyword. -/
def basicType : JavaRule :=
  .any
    [.renamed "void" "void_type",
      .node "integral_type" (.any ["byte", "short", "int", "long", "char"]),
      .node "floating_point_type" (.any ["float", "double"]),
      .renamed "boolean" "boolean_type"]

/-- A type without dimensions. -/
def simpleType : JavaRule :=
  .grow (.any [basicType, typeIdentifier])
    (.any
      [.all [.leftIs ["type_identifier", "scoped_type_identifier"],
        .wrap "generic_type" none typeArguments],
        .all [.leftIs ["type_identifier", "scoped_type_identifier", "generic_type"],
          .wrap "scoped_type_identifier" none (.all [".", annotations, typeIdentifier])]])

/-- A type with its dimensions. -/
def unannotatedTypeRule : JavaRule :=
  .grow simpleType
    (.wrap "array_type" (some "element") (.field "dimensions" dimensions))

/-- A type with the annotations before it. -/
def typeRule : JavaRule :=
  .any [unannotatedType,
    .node "annotated_type" (.all [.some metadata, unannotatedType])]

/-- A type argument that is left open. -/
def wildcard : JavaRule :=
  .node "wildcard"
    (.all [annotations, "?",
      .optional (.any [.all ["extends", type], .all ["super", type]])])

/-- The arguments of a generic type. -/
def typeArgumentsRule : JavaRule :=
  .node "type_arguments" (.all ["<", .list (.any [wildcard, type]), ">"])

/-- The types that a type parameter must extend. -/
def typeBound : JavaRule :=
  .node "type_bound" (.all ["extends", .separated "&" type])

/-- The parameters of a generic declaration. -/
def typeParameters : JavaRule :=
  .node "type_parameters"
    (.all ["<",
      .separated ","
        (.node "type_parameter" (.all [annotations, typeIdentifier, .optional typeBound])),
      ">"])

/-- Types separated by commas. -/
def typeList : JavaRule :=
  .node "type_list" (.separated "," type)

/-- A name that declares a variable, with the dimensions behind it. -/
def variableName : JavaRule :=
  .all [.field "name" identifier, .optional (.field "dimensions" dimensions)]

/-- The parameters of a method. -/
def formalParametersRule : JavaRule :=
  .node "formal_parameters"
    (.all ["(", .list (.any [receiver, parameter, variadic]), ")"])
where
  /-- The object on which the method is called, named as a parameter. -/
  receiver : JavaRule :=
    .node "receiver_parameter"
      (.all [annotations, unannotatedType, .many (.all [identifier, "."]), "this"])
  /-- One parameter. -/
  parameter : JavaRule :=
    .node "formal_parameter"
      (.all [.optional modifiers, .field "type" unannotatedType, variableName])
  /-- A last parameter that takes any number of arguments. -/
  variadic : JavaRule :=
    .node "spread_parameter"
      (.all [.optional modifiers, unannotatedType, annotations, "...", annotations,
        .node "variable_declarator" variableName])

end Java
end JavaSketch
