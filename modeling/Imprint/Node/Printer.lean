/-
Module: Imprint.Node.Printer
Purpose: Nodes as JSON. The type comes first, then the fields of the kind in their fixed order, and last
  the span, which synthetic nodes leave out. An optional child that is absent is left out, and a hole
  of an array is `null`.
Main exports: Node.toJson, Node.compactText, Node.prettyText
-/
import Imprint.Json.Printer
import Imprint.Node.Tag

namespace Imprint

/-- The span member, left out when the span is synthetic. -/
def Span.members (span : Span) : List (String × Json) :=
  if span = .synthetic then []
  else
    [("span",
      .object [("start", .ofNat span.start.toNat), ("end", .ofNat span.stop.toNat)])]

/-- A literal stretch of a template as JSON. -/
def Quasi.toJson (quasi : Quasi) : Json :=
  .object (("raw", .text quasi.raw) :: quasi.span.members)

/-- The fields of a leaf. -/
def Leaf.members : Leaf → List (String × Json)
  | .this => []
  | .text value => [("value", .text value)]
  | .number value => [("value", .number (.real value))]
  | .boolean value => [("value", .bool value)]
  | .null => []
  | .regExp pattern flags => [("pattern", .text pattern), ("flags", .text flags)]
  | .raw source => [("source", .text source)]

namespace Node

mutual

/-- A node as JSON. -/
def toJson : Node → Json
  | ⟨span, kind⟩ =>
      .object (("type", .text kind.tag.name) :: kindMembers kind ++ span.members)

/-- The fields of a kind. -/
def kindMembers : Kind Node → List (String × Json)
  | .program body => [("body", .array (listToJson body))]
  | .expressionStatement expression => [("expression", toJson expression)]
  | .block body => [("body", .array (listToJson body))]
  | .returnStatement argument => optionMember "argument" argument
  | .ifStatement test consequent alternate =>
      [("test", toJson test), ("consequent", toJson consequent)] ++
        optionMember "alternate" alternate
  | .declaration form declarators =>
      [("kind", .text form.word), ("declarations", .array (listToJson declarators))]
  | .declarator target init => ("id", toJson target) :: optionMember "init" init
  | .functionDeclaration name params body =>
      [("id", toJson name), ("params", .array (listToJson params)), ("body", toJson body)]
  | .functionExpression name params body =>
      optionMember "id" name ++
        [("params", .array (listToJson params)), ("body", toJson body)]
  | .arrowFunction params body =>
      [("params", .array (listToJson params)), ("body", toJson body)]
  | .classDeclaration name superClass body =>
      optionMember "id" name ++ optionMember "superClass" superClass ++
        [("body", .array (listToJson body))]
  | .method home form key computed params body =>
      [("kind", .text form.word), ("key", toJson key), ("computed", .bool computed)] ++
        (match home with
          | .object => []
          | .classBody isStatic => [("isStatic", .bool isStatic)]) ++
        [("params", .array (listToJson params)), ("body", toJson body)]
  | .identifier name => [("name", .text name)]
  | .leaf content => content.members
  | .template quasis expressions =>
      [("quasis", .array (quasis.map Quasi.toJson)),
        ("expressions", .array (listToJson expressions))]
  | .taggedTemplate tag quasi => [("tag", toJson tag), ("quasi", toJson quasi)]
  | .member object property computed =>
      [("object", toJson object), ("property", toJson property), ("computed", .bool computed)]
  | .call callee arguments =>
      [("callee", toJson callee), ("arguments", .array (listToJson arguments))]
  | .construct callee arguments =>
      [("callee", toJson callee), ("arguments", .array (listToJson arguments))]
  | .unary operator leading argument =>
      [("operator", .text operator), ("prefix", .bool leading), ("argument", toJson argument)]
  | .update operator leading argument =>
      [("operator", .text operator), ("prefix", .bool leading), ("argument", toJson argument)]
  | .operation _ operator left right =>
      [("operator", .text operator), ("left", toJson left), ("right", toJson right)]
  | .assignment operator left right =>
      [("operator", .text operator), ("left", toJson left), ("right", toJson right)]
  | .conditional test consequent alternate =>
      [("test", toJson test), ("consequent", toJson consequent), ("alternate", toJson alternate)]
  | .spread argument => [("argument", toJson argument)]
  | .assignmentPattern left right => [("left", toJson left), ("right", toJson right)]
  | .array elements => [("elements", .array (slotsToJson elements))]
  | .object properties => [("properties", .array (listToJson properties))]
  | .property key value computed =>
      [("key", toJson key), ("value", toJson value), ("computed", .bool computed)]

/-- Every node of a list. -/
def listToJson : List Node → List Json
  | [] => []
  | node :: rest => toJson node :: listToJson rest

/-- Every place of an array, holes included. -/
def slotsToJson : List (Option Node) → List Json
  | [] => []
  | none :: rest => .null :: slotsToJson rest
  | some node :: rest => toJson node :: slotsToJson rest

/-- The member of an optional child, left out when the child is absent. -/
def optionMember (key : String) : Option Node → List (String × Json)
  | none => []
  | some node => [(key, toJson node)]

end

/-- The JSON text of a node on one line. -/
def compactText (node : Node) : String := node.toJson.compact

/-- The indented JSON text of a node. -/
def prettyText (node : Node) : String := node.toJson.pretty

end Node

end Imprint
