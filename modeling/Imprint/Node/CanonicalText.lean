/-
Module: Imprint.Node.CanonicalText
Purpose: The canonical text of a node, by which names are looked up and callees compared. It is never
  read back and is lossy on purpose: strings stand without quotes, a computed member looks like a
  named one unless its property is itself a member, and kinds without a text of their own are empty.
  The pieces of a template stand in the order of their source positions.
Main exports: Node.canonicalText, Node.templateText
-/
import Imprint.Binary64.SourceText
import Imprint.Node.Tag
import Imprint.Text.Split

namespace Imprint

/-- The text of a leaf; raw source has none. -/
def Leaf.canonicalText : Leaf → String
  | .this => "this"
  | .text value => value
  | .number value => value.sourceText
  | .boolean value => if value then "true" else "false"
  | .null => "null"
  | .regExp pattern flags => "/" ++ pattern ++ "/" ++ flags
  | .raw _ => ""

namespace Node

/-- A piece of a template: where it starts, and its text. -/
structure Piece where
  start : UInt64
  text : String
deriving DecidableEq, Repr

/-- A template from its pieces in the order of their starts; pieces with equal starts keep their
order. -/
def templateText (pieces : List Piece) : String :=
  let ordered := pieces.mergeSort fun first second => first.start ≤ second.start
  String.ofList ['\x60'] ++ Text.join "" (ordered.map Piece.text) ++ String.ofList ['\x60']

/-- The text of a member access from the texts of its parts. -/
def memberText (objectText propertyText : String) (propertyIsMember : Bool) : String :=
  if propertyIsMember then objectText ++ "[" ++ propertyText ++ "]"
  else if objectText.isEmpty then propertyText
  else objectText ++ "." ++ propertyText

/-- The text before the key of a method; plain methods have none. -/
def methodLead : MethodForm → String
  | .method => ""
  | form => form.word ++ " "

mutual

/-- The canonical text of a node. -/
def canonicalText : Node → String
  | ⟨_, kind⟩ => kindText kind

/-- The canonical text of a kind of syntax. -/
def kindText : Kind Node → String
  | .program _ => ""
  | .expressionStatement expression => canonicalText expression ++ ";"
  | .block body => "\x7b" ++ Text.join "" (listTexts body) ++ "\x7d"
  | .returnStatement _ => ""
  | .ifStatement .. => ""
  | .declaration form declarators =>
      form.word ++ " " ++ Text.join "," (listTexts declarators) ++ ";"
  | .declarator target none => canonicalText target
  | .declarator target (some init) => canonicalText target ++ " = " ++ canonicalText init
  | .functionDeclaration .. => ""
  | .functionExpression name params body =>
      "function " ++ optionText name ++ "(" ++ Text.join "," (listTexts params) ++ ")" ++
        canonicalText body
  | .arrowFunction .. => ""
  | .classDeclaration .. => ""
  | .method .object form key _ params body =>
      methodLead form ++ canonicalText key ++ "(" ++ Text.join ", " (listTexts params) ++ ")" ++
        canonicalText body
  | .method (.classBody _) .. => ""
  | .identifier name => name
  | .leaf content => content.canonicalText
  | .template quasis expressions =>
      templateText (expressionPieces expressions ++
        quasis.map fun quasi => ⟨quasi.span.start, quasi.raw⟩)
  | .taggedTemplate tag quasi => canonicalText tag ++ canonicalText quasi
  | .member object property _ =>
      memberText (canonicalText object) (canonicalText property) property.isMember
  | .call callee arguments =>
      canonicalText callee ++ "(" ++ Text.join "," (listTexts arguments) ++ ")"
  | .construct callee arguments =>
      "new " ++ canonicalText callee ++ "(" ++ Text.join "," (listTexts arguments) ++ ")"
  | .unary operator true argument => operator ++ canonicalText argument
  | .unary operator false argument => canonicalText argument ++ operator
  | .update operator true argument => operator ++ canonicalText argument
  | .update operator false argument => canonicalText argument ++ operator
  | .operation _ operator left right =>
      canonicalText left ++ " " ++ operator ++ " " ++ canonicalText right
  | .assignment .. => ""
  | .conditional test consequent alternate =>
      canonicalText test ++ " ? " ++ canonicalText consequent ++ " : " ++ canonicalText alternate
  | .spread argument => "..." ++ canonicalText argument
  | .assignmentPattern left right => canonicalText left ++ " = " ++ canonicalText right
  | .array elements => "[" ++ Text.join ", " (slotTexts elements) ++ "]"
  | .object properties => "\x7b" ++ Text.join ", " (listTexts properties) ++ "\x7d"
  | .property key value true => "[" ++ canonicalText key ++ "]: " ++ canonicalText value
  | .property key value false => canonicalText key ++ ": " ++ canonicalText value

/-- The text of every node of a list. -/
def listTexts : List Node → List String
  | [] => []
  | node :: rest => canonicalText node :: listTexts rest

/-- The text of every place of an array; a hole is empty. -/
def slotTexts : List (Option Node) → List String
  | [] => []
  | none :: rest => "" :: slotTexts rest
  | some node :: rest => canonicalText node :: slotTexts rest

/-- The text of an optional node, empty when it is absent. -/
def optionText : Option Node → String
  | none => ""
  | some node => canonicalText node

/-- The expressions of a template as its pieces. -/
def expressionPieces : List Node → List Piece
  | [] => []
  | node :: rest =>
      ⟨node.span.start, "$\x7b" ++ canonicalText node ++ "\x7d"⟩ :: expressionPieces rest

end

end Node

end Imprint
