/-
Module: Imprint.Node
Purpose: Syntax trees of a JavaScript-like language. A node is a kind of syntax with its children, and
  the span of source text it came from. Array and object nodes also serve as destructuring patterns:
  the place where they stand decides whether they bind or read.
Main exports: Span, DeclarationForm, MethodForm, MethodHome, OperatorFamily, Quasi, Leaf, Kind, Node
-/
import Imprint.Binary64

namespace Imprint

/-- A range of offsets into the source text. -/
structure Span where
  start : UInt64
  stop : UInt64
deriving DecidableEq, Repr

/-- The span of nodes that come from no source text: the greatest offset twice. -/
def Span.synthetic : Span := ⟨UInt64.ofNat (UInt64.size - 1), UInt64.ofNat (UInt64.size - 1)⟩

/-- The keyword of a variable declaration. -/
inductive DeclarationForm where
  | varForm
  | letForm
  | constForm
deriving DecidableEq, Repr

/-- The flavour of a method. -/
inductive MethodForm where
  | method
  | get
  | set
  | constructor
deriving DecidableEq, Repr

/-- Where a method stands; those of classes can be static. -/
inductive MethodHome where
  | object
  | classBody (isStatic : Bool)
deriving DecidableEq, Repr

/-- The two families of operators between two operands. -/
inductive OperatorFamily where
  | binary
  | logical
deriving DecidableEq, Repr

/-- A literal stretch of a template. -/
structure Quasi where
  raw : String
  span : Span
deriving DecidableEq, Repr

/-- Nodes without children other than identifiers. Raw source is spliced in as it stands. -/
inductive Leaf where
  | this
  | text (value : String)
  | number (value : Binary64)
  | boolean (value : Bool)
  | null
  | regExp (pattern flags : String)
  | raw (source : String)
deriving DecidableEq, Repr

/-- The kinds of syntax over a type of children. An array has holes, and what may be left out is
optional. -/
inductive Kind (α : Type) where
  | program (body : List α)
  | expressionStatement (expression : α)
  | block (body : List α)
  | returnStatement (argument : Option α)
  | ifStatement (test consequent : α) (alternate : Option α)
  | declaration (form : DeclarationForm) (declarators : List α)
  | declarator (target : α) (init : Option α)
  | functionDeclaration (name : α) (params : List α) (body : α)
  | functionExpression (name : Option α) (params : List α) (body : α)
  | arrowFunction (params : List α) (body : α)
  | classDeclaration (name superClass : Option α) (body : List α)
  | method (home : MethodHome) (form : MethodForm) (key : α) (computed : Bool) (params : List α)
      (body : α)
  | identifier (name : String)
  | leaf (content : Leaf)
  | template (quasis : List Quasi) (expressions : List α)
  | taggedTemplate (tag quasi : α)
  | member (object property : α) (computed : Bool)
  | call (callee : α) (arguments : List α)
  | construct (callee : α) (arguments : List α)
  | unary (operator : String) (leading : Bool) (argument : α)
  | update (operator : String) (leading : Bool) (argument : α)
  | operation (family : OperatorFamily) (operator : String) (left right : α)
  | assignment (operator : String) (left right : α)
  | conditional (test consequent alternate : α)
  | spread (argument : α)
  | assignmentPattern (left right : α)
  | array (elements : List (Option α))
  | object (properties : List α)
  | property (key value : α) (computed : Bool)
deriving Repr

/-- A node of a syntax tree. -/
structure Node where
  span : Span
  kind : Kind Node
deriving Repr

namespace Node

/-- A node that comes from no source text. -/
def generated (kind : Kind Node) : Node := ⟨.synthetic, kind⟩

/-- The same node from another stretch of source text. -/
def withSpan (span : Span) (node : Node) : Node := { node with span := span }

/-- The node comes from no source text. -/
def isSynthetic (node : Node) : Bool := node.span == .synthetic

/-- The name of an identifier. -/
def identifier? (node : Node) : Option String :=
  match node.kind with
  | .identifier name => some name
  | _ => none

/-- The value of a string literal. -/
def text? (node : Node) : Option String :=
  match node.kind with
  | .leaf (.text value) => some value
  | _ => none

/-- A member access, computed or not. -/
def isMember (node : Node) : Bool :=
  match node.kind with
  | .member .. => true
  | _ => false

/-- A whole program, as the tree of a file is. -/
def isProgram (node : Node) : Bool :=
  match node.kind with
  | .program .. => true
  | _ => false

end Node

end Imprint
