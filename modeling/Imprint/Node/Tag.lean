/-
Module: Imprint.Node.Tag
Purpose: The type names of nodes as they are written in JSON, in their fixed order. A type may also be
  given by its place in that order.
Main exports: Tag, Tag.name, Tag.ofName?, Tag.ofIndex?, Kind.tag
-/
import Imprint.Node

namespace Imprint

/-- The type of a node in JSON. -/
inductive Tag where
  | program
  | expressionStatement
  | block
  | returnStatement
  | ifStatement
  | declaration
  | declarator
  | functionDeclaration
  | functionExpression
  | arrowFunction
  | classDeclaration
  | classMethod
  | identifier
  | this
  | string
  | number
  | boolean
  | null
  | regExp
  | template
  | taggedTemplate
  | member
  | call
  | construct
  | unary
  | update
  | binary
  | logical
  | assignment
  | conditional
  | spread
  | assignmentPattern
  | array
  | object
  | property
  | objectMethod
  | raw
deriving DecidableEq, Repr

namespace Tag

/-- Every type, in order. -/
def all : List Tag :=
  [.program, .expressionStatement, .block, .returnStatement, .ifStatement, .declaration,
    .declarator, .functionDeclaration, .functionExpression, .arrowFunction, .classDeclaration,
    .classMethod, .identifier, .this, .string, .number, .boolean, .null, .regExp, .template,
    .taggedTemplate, .member, .call, .construct, .unary, .update, .binary, .logical, .assignment,
    .conditional, .spread, .assignmentPattern, .array, .object, .property, .objectMethod, .raw]

/-- The name of a type. -/
def name : Tag → String
  | .program => "Program"
  | .expressionStatement => "ExpressionStatement"
  | .block => "BlockStatement"
  | .returnStatement => "ReturnStatement"
  | .ifStatement => "IfStatement"
  | .declaration => "VariableDeclaration"
  | .declarator => "VariableDeclarator"
  | .functionDeclaration => "FunctionDeclaration"
  | .functionExpression => "FunctionExpression"
  | .arrowFunction => "ArrowFunctionExpression"
  | .classDeclaration => "ClassDeclaration"
  | .classMethod => "ClassMethod"
  | .identifier => "Identifier"
  | .this => "ThisExpression"
  | .string => "StringLiteral"
  | .number => "NumericLiteral"
  | .boolean => "BooleanLiteral"
  | .null => "NullLiteral"
  | .regExp => "RegExpLiteral"
  | .template => "TemplateLiteral"
  | .taggedTemplate => "TaggedTemplateExpression"
  | .member => "MemberExpression"
  | .call => "CallExpression"
  | .construct => "NewExpression"
  | .unary => "UnaryExpression"
  | .update => "UpdateExpression"
  | .binary => "BinaryExpression"
  | .logical => "LogicalExpression"
  | .assignment => "AssignmentExpression"
  | .conditional => "ConditionalExpression"
  | .spread => "SpreadElement"
  | .assignmentPattern => "AssignmentPattern"
  | .array => "ArrayExpression"
  | .object => "ObjectExpression"
  | .property => "ObjectProperty"
  | .objectMethod => "ObjectMethod"
  | .raw => "Raw"

/-- The type of a name. -/
def ofName? (name : String) : Option Tag := all.find? fun tag => tag.name == name

/-- The type at a place in the order, counted from zero. -/
def ofIndex? (index : Int) : Option Tag :=
  match index with
  | .ofNat n => all[n]?
  | .negSucc _ => none

/-- Every type is found by its name. -/
theorem ofName?_name (tag : Tag) : ofName? tag.name = some tag := by
  cases tag <;> rfl

end Tag

/-- The type of a leaf. -/
def Leaf.tag : Leaf → Tag
  | .this => .this
  | .text _ => .string
  | .number _ => .number
  | .boolean _ => .boolean
  | .null => .null
  | .regExp .. => .regExp
  | .raw _ => .raw

/-- The type of a kind of syntax. -/
def Kind.tag {α : Type} : Kind α → Tag
  | .program _ => .program
  | .expressionStatement _ => .expressionStatement
  | .block _ => .block
  | .returnStatement _ => .returnStatement
  | .ifStatement .. => .ifStatement
  | .declaration .. => .declaration
  | .declarator .. => .declarator
  | .functionDeclaration .. => .functionDeclaration
  | .functionExpression .. => .functionExpression
  | .arrowFunction .. => .arrowFunction
  | .classDeclaration .. => .classDeclaration
  | .method .object .. => .objectMethod
  | .method (.classBody _) .. => .classMethod
  | .identifier _ => .identifier
  | .leaf content => content.tag
  | .template .. => .template
  | .taggedTemplate .. => .taggedTemplate
  | .member .. => .member
  | .call .. => .call
  | .construct .. => .construct
  | .unary .. => .unary
  | .update .. => .update
  | .operation .binary .. => .binary
  | .operation .logical .. => .logical
  | .assignment .. => .assignment
  | .conditional .. => .conditional
  | .spread _ => .spread
  | .assignmentPattern .. => .assignmentPattern
  | .array _ => .array
  | .object _ => .object
  | .property .. => .property

/-- The keyword of a declaration. -/
def DeclarationForm.word : DeclarationForm → String
  | .varForm => "var"
  | .letForm => "let"
  | .constForm => "const"

/-- Every declaration keyword. -/
def DeclarationForm.all : List DeclarationForm := [.varForm, .letForm, .constForm]

/-- The word for a flavour of methods. -/
def MethodForm.word : MethodForm → String
  | .method => "method"
  | .get => "get"
  | .set => "set"
  | .constructor => "constructor"

/-- Every flavour of methods. -/
def MethodForm.all : List MethodForm := [.method, .get, .set, .constructor]

end Imprint
