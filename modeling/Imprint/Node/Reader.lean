/-
Module: Imprint.Node.Reader
Purpose: Nodes from JSON. The order of members does not matter, members that a node does not know are
  passed over, and a known one must not be repeated. Spans and template stretches may also be written
  as arrays of their fields.
Main exports: Span.ofJson?, Quasi.ofJson?, Node.ofJson?, Node.ofDocument?, Node.ofText?
-/
import Imprint.Json.Document
import Imprint.Node.Tag

namespace Imprint

/-! ### Scalars -/

/-- An offset is an integer of 64 bits without sign. -/
def Span.offset? : Json → Option UInt64
  | .number (.whole value) =>
      if 0 ≤ value ∧ value.toNat < UInt64.size then some (UInt64.ofNat value.toNat) else none
  | _ => none

/-- A span has both its offsets. -/
def Span.ofJson? : Json → Option Span
  | .object members => do
      let start ← Json.required? "start" offset? members
      let stop ← Json.required? "end" offset? members
      return ⟨start, stop⟩
  | .array [start, stop] => do
      return ⟨← offset? start, ← offset? stop⟩
  | _ => none

/-- A template stretch has its raw text and possibly a span. -/
def Quasi.ofJson? : Json → Option Quasi
  | .object members => do
      let raw ← Json.required? "raw" Json.text? members
      let span ← Json.defaulted? "span" Span.synthetic Span.ofJson? members
      return ⟨raw, span⟩
  | .array [raw] => do
      return ⟨← raw.text?, Span.synthetic⟩
  | .array [raw, span] => do
      return ⟨← raw.text?, ← Span.ofJson? span⟩
  | _ => none

/-- The type of a node, by name or by place. -/
def Tag.ofJson? : Json → Option Tag
  | .text name => ofName? name
  | .number (.whole index) => ofIndex? index
  | _ => none

/-- A word from a fixed choice: written as a text, or as the only key of an object that holds
nothing. -/
def Json.word? : Json → Option String
  | .text word => some word
  | .object [(word, .null)] => some word
  | .object [(word, .object [])] => some word
  | _ => none

/-- The form of a declaration by its keyword. -/
def DeclarationForm.ofJson? (json : Json) : Option DeclarationForm :=
  json.word?.bind fun word => all.find? fun form => form.word == word

/-- The flavour of a method by its word. -/
def MethodForm.ofJson? (json : Json) : Option MethodForm :=
  json.word?.bind fun word => all.find? fun form => form.word == word

/-! ### Fields -/

/-- A member of a node, read in every way a field can ask for: as plain JSON, as a node, as a list of
nodes, and as a list of nodes and holes. -/
structure Field where
  json : Json
  node? : Option Node
  nodes? : Option (List Node)
  slots? : Option (List (Option Node))

namespace Field

/-- An optional child: `null` says that it is absent. -/
def child? (field : Field) : Option (Option Node) :=
  match field.json with
  | .null => some none
  | _ => field.node?.map some

/-- The template stretches of a list. -/
def quasis? (field : Field) : Option (List Quasi) :=
  match field.json with
  | .array items => items.mapM Quasi.ofJson?
  | _ => none

end Field

/-- The members of a node. -/
abbrev Fields := List (String × Field)

namespace Fields

/-- A child that must be there. -/
def node? (key : String) (fields : Fields) : Option Node := Json.required? key Field.node? fields

/-- A child that may be absent. -/
def child? (key : String) (fields : Fields) : Option (Option Node) :=
  Json.defaulted? key none Field.child? fields

/-- A list of children. -/
def nodes? (key : String) (fields : Fields) : Option (List Node) :=
  Json.required? key Field.nodes? fields

/-- A text that must be there. -/
def text? (key : String) (fields : Fields) : Option String :=
  Json.required? key (fun field => field.json.text?) fields

/-- A truth value with a default. -/
def flag? (key : String) (default : Bool) (fields : Fields) : Option Bool :=
  Json.defaulted? key default (fun field => field.json.bool?) fields

/-- The flavour of a method; plain methods may leave it out. -/
def methodForm? (fields : Fields) : Option MethodForm :=
  Json.defaulted? "kind" .method (fun field => MethodForm.ofJson? field.json) fields

/-- The kind of syntax that the fields of a type describe. -/
def kind? (fields : Fields) : Tag → Option (Kind Node)
  | .program => do return .program (← fields.nodes? "body")
  | .expressionStatement => do return .expressionStatement (← fields.node? "expression")
  | .block => do return .block (← fields.nodes? "body")
  | .returnStatement => do return .returnStatement (← fields.child? "argument")
  | .ifStatement => do
      return .ifStatement (← fields.node? "test") (← fields.node? "consequent")
        (← fields.child? "alternate")
  | .declaration => do
      let form ← Json.required? "kind" (fun field => DeclarationForm.ofJson? field.json) fields
      return .declaration form (← fields.nodes? "declarations")
  | .declarator => do return .declarator (← fields.node? "id") (← fields.child? "init")
  | .functionDeclaration => do
      return .functionDeclaration (← fields.node? "id") (← fields.nodes? "params")
        (← fields.node? "body")
  | .functionExpression => do
      return .functionExpression (← fields.child? "id") (← fields.nodes? "params")
        (← fields.node? "body")
  | .arrowFunction => do
      return .arrowFunction (← fields.nodes? "params") (← fields.node? "body")
  | .classDeclaration => do
      return .classDeclaration (← fields.child? "id") (← fields.child? "superClass")
        (← fields.nodes? "body")
  | .classMethod => do
      let form ← fields.methodForm?
      let isStatic ← fields.flag? "isStatic" false
      return .method (.classBody isStatic) form (← fields.node? "key")
        (← fields.flag? "computed" false) (← fields.nodes? "params") (← fields.node? "body")
  | .identifier => do return .identifier (← fields.text? "name")
  | .this => some (.leaf .this)
  | .string => do return .leaf (.text (← fields.text? "value"))
  | .number => do
      return .leaf (.number (← Json.required? "value" (fun field => field.json.real?) fields))
  | .boolean => do
      return .leaf (.boolean (← Json.required? "value" (fun field => field.json.bool?) fields))
  | .null => some (.leaf .null)
  | .regExp => do
      let pattern ← fields.text? "pattern"
      let flags ← Json.defaulted? "flags" "" (fun field => field.json.text?) fields
      return .leaf (.regExp pattern flags)
  | .template => do
      let quasis ← Json.required? "quasis" Field.quasis? fields
      return .template quasis (← fields.nodes? "expressions")
  | .taggedTemplate => do
      return .taggedTemplate (← fields.node? "tag") (← fields.node? "quasi")
  | .member => do
      return .member (← fields.node? "object") (← fields.node? "property")
        (← fields.flag? "computed" false)
  | .call => do return .call (← fields.node? "callee") (← fields.nodes? "arguments")
  | .construct => do return .construct (← fields.node? "callee") (← fields.nodes? "arguments")
  | .unary => do
      return .unary (← fields.text? "operator") (← fields.flag? "prefix" true)
        (← fields.node? "argument")
  | .update => do
      return .update (← fields.text? "operator") (← fields.flag? "prefix" false)
        (← fields.node? "argument")
  | .binary => do
      return .operation .binary (← fields.text? "operator") (← fields.node? "left")
        (← fields.node? "right")
  | .logical => do
      return .operation .logical (← fields.text? "operator") (← fields.node? "left")
        (← fields.node? "right")
  | .assignment => do
      return .assignment (← fields.text? "operator") (← fields.node? "left")
        (← fields.node? "right")
  | .conditional => do
      return .conditional (← fields.node? "test") (← fields.node? "consequent")
        (← fields.node? "alternate")
  | .spread => do return .spread (← fields.node? "argument")
  | .assignmentPattern => do
      return .assignmentPattern (← fields.node? "left") (← fields.node? "right")
  | .array => do return .array (← Json.required? "elements" Field.slots? fields)
  | .object => do return .object (← fields.nodes? "properties")
  | .property => do
      return .property (← fields.node? "key") (← fields.node? "value")
        (← fields.flag? "computed" false)
  | .objectMethod => do
      let form ← fields.methodForm?
      return .method .object form (← fields.node? "key") (← fields.flag? "computed" false)
        (← fields.nodes? "params") (← fields.node? "body")
  | .raw => do return .leaf (.raw (← fields.text? "source"))

/-- The node that the members of an object describe. -/
def toNode? (fields : Fields) : Option Node := do
  let tag ← Json.required? "type" (fun field => Tag.ofJson? field.json) fields
  let span ← Json.defaulted? "span" Span.synthetic (fun field => Span.ofJson? field.json) fields
  let kind ← fields.kind? tag
  return ⟨span, kind⟩

end Fields

/-! ### Nodes -/

namespace Node

mutual

/-- A JSON value as a field of a node. -/
def readField : Json → Field
  | .object members => ⟨.object members, (readMembers members).toNode?, none, none⟩
  | .array items =>
      let read := readItems items
      ⟨.array items, none, read.mapM Field.node?, read.mapM Field.child?⟩
  | json => ⟨json, none, none, none⟩

/-- Every item of an array. -/
def readItems : List Json → List Field
  | [] => []
  | item :: rest => readField item :: readItems rest

/-- Every member of an object. -/
def readMembers : List (String × Json) → Fields
  | [] => []
  | (key, value) :: rest => (key, readField value) :: readMembers rest

end

/-- The node of a JSON value, which must be an object. -/
def ofJson? (json : Json) : Option Node := (readField json).node?

/-- The node of a document. What the outermost span does not know is skipped unread. -/
def ofDocument? (document : Document) : Option Node :=
  ((document.mapMember "span" (Document.keepMembers ["start", "end"])).value?
    Document.depthLimit).bind ofJson?

/-- The node of a JSON text. -/
def ofText? (source : String) : Option Node := (Document.ofText? source).bind ofDocument?

end Node

end Imprint
