/-
Module: Imprint.Node.Build
Purpose: Nodes built by hand. They come from no source text.
Main exports: Node.identifier, Node.string, Node.number, Node.dotted, Node.declaration, …
-/
import Imprint.Node
import Imprint.Text.Split

namespace Imprint.Node

/-- A program of the given statements. -/
def program (body : List Node) : Node := generated (.program body)

/-- An expression as a statement. -/
def expressionStatement (expression : Node) : Node := generated (.expressionStatement expression)

/-- A block of statements. -/
def block (body : List Node) : Node := generated (.block body)

/-- A declaration with one declarator. -/
def declaration (form : DeclarationForm) (target : Node) (init : Option Node) : Node :=
  generated (.declaration form [generated (.declarator target init)])

/-- A function declaration whose body is a block. -/
def functionDeclaration (name : Node) (params body : List Node) : Node :=
  generated (.functionDeclaration name params (block body))

/-- An identifier. -/
def identifier (name : String) : Node := generated (.identifier name)

/-- A string literal. -/
def string (value : String) : Node := generated (.leaf (.text value))

/-- A number literal. -/
def number (value : Binary64) : Node := generated (.leaf (.number value))

/-- A boolean literal. -/
def boolean (value : Bool) : Node := generated (.leaf (.boolean value))

/-- The literal `null`. -/
def null : Node := generated (.leaf .null)

/-- A regular expression literal. -/
def regExp (pattern flags : String) : Node := generated (.leaf (.regExp pattern flags))

/-- Source text that stands for itself. -/
def raw (source : String) : Node := generated (.leaf (.raw source))

/-- The member of an object that a name denotes. -/
def member (object property : Node) : Node := generated (.member object property false)

/-- The member of an object that an expression denotes. -/
def computedMember (object property : Node) : Node := generated (.member object property true)

/-- The member chain that a dotted path spells: its first segment, and a member for each further
one. -/
def dotted (path : String) : Node :=
  match Text.split '.' path with
  | [] => identifier ""
  | head :: segments =>
      segments.foldl (fun object segment => member object (identifier segment)) (identifier head)

/-- A call. -/
def call (callee : Node) (arguments : List Node) : Node := generated (.call callee arguments)

/-- A construction with `new`. -/
def construct (callee : Node) (arguments : List Node) : Node :=
  generated (.construct callee arguments)

/-- An array, possibly with holes. -/
def array (elements : List (Option Node)) : Node := generated (.array elements)

/-- An object. -/
def object (properties : List Node) : Node := generated (.object properties)

/-- A property whose key is written out. -/
def property (key value : Node) : Node := generated (.property key value false)

end Imprint.Node
