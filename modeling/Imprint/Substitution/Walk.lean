/-
Module: Imprint.Substitution.Walk
Purpose: The walk over a tree. It goes through every node once, from the outside in and in source order,
  and puts literals in the place of the names that are read. What a node is for depends on its
  position: a name that is bound, assigned to, declared or written as a key stays as it is, while
  defaults and computed keys inside patterns are read. A member chain is replaced as a whole when
  its dotted name has a rule. The package version can be called, with the name of a package or
  without; no other name is replaced as a callee, nor as an argument spelled like the callee.
  How names are written down and versions are found on the way is left to the walker.
Main exports: Position, Walker, Walker.visit, Rules.visit, Rules.packagesOf
-/
import Imprint.Node.Chain
import Imprint.Substitution.Rules
import Imprint.Substitution.Traced

namespace Imprint

/-- What a node is for where it stands. -/
inductive Position where
  /-- Its value is used. -/
  | read
  /-- It binds names or is assigned to. -/
  | pattern
  /-- It is a property of an object pattern. -/
  | entry
  /-- It goes on with the member chain whose property it is. -/
  | chain
  /-- It is left alone. -/
  | kept
deriving DecidableEq, Repr

namespace Position

/-- The position of the parts of a list or of what is spread. -/
def part : Position → Position
  | .pattern => .pattern
  | .entry => .pattern
  | _ => .read

/-- The position of the properties of an object. -/
def propertyOf : Position → Position
  | .pattern => .entry
  | .entry => .entry
  | _ => .read

/-- The position of the value of a property. -/
def valueOf : Position → Position
  | .entry => .pattern
  | _ => .read

/-- The position of a key: it is read when it is computed. -/
def key (computed : Bool) : Position := if computed then .read else .kept

/-- The position of the property of a member. -/
def memberProperty (position : Position) (computed : Bool) (property : Node) : Position :=
  match position with
  | .pattern => key computed
  | .entry => key computed
  | _ =>
      if property.isMember then .chain
      else if property.identifier?.isSome then key computed
      else .read

/-- The position of a callee. -/
def callee (node : Node) : Position := if node.identifier?.isSome then .kept else .read

/-- The position of an argument of a callee with the given text. -/
def argument (calleeText : String) (node : Node) : Position :=
  if node.identifier? = some calleeText then .kept else .read

end Position

namespace Rules

/-! ### Calls of the package version -/

/-- A use of the package version as a function. -/
inductive VersionCall where
  | own
  | dependency (package : String)
deriving DecidableEq, Repr

/-- The name by which the package version is called. -/
def versionName : String := BuiltIn.packageVersion.identifier

/-- The use of the package version that a call is: without arguments, or with one string literal. -/
def versionCall? (callee : Node) (arguments : List Node) : Option VersionCall :=
  if callee.identifier? = some versionName then
    match arguments with
    | [] => some .own
    | [argument] => argument.text?.map .dependency
    | _ => none
  else
    none

end Rules

/-! ### The walk -/

/-- Who walks over a tree: the literals that are put in, what is done when a name is replaced, and how the
version of a package is found. -/
structure Walker (m : Type → Type) where
  literal? : String → Option Node
  bareCall? : Option Node
  replaced : String → m Unit
  version : String → m String

namespace Walker

open Rules

variable {m : Type → Type} [Monad m]

/-- A literal in the place of a node, with the span of that node. -/
def replace (walker : Walker m) (name : String) (literal node : Node) : m Node := do
  walker.replaced name
  return literal.withSpan node.span

/-- The literal for a name in the place of a node, or the node itself when there is none. -/
def substitute (walker : Walker m) (name : String) (node : Node) : m Node :=
  match walker.literal? name with
  | some literal => walker.replace name literal node
  | none => pure node

mutual

/-- Walk over a node. -/
def visit (walker : Walker m) : Position → Node → m Node
  | .kept, node => pure node
  | position, ⟨span, kind⟩ => walker.visitKind position span kind

/-- Walk over a kind of syntax with the span of its node. -/
def visitKind (walker : Walker m) (position : Position) (span : Span) : Kind Node → m Node
  | .program body => (fun body => ⟨span, .program body⟩) <$> walker.visitList .read body
  | .expressionStatement expression =>
      (fun expression => ⟨span, .expressionStatement expression⟩) <$> walker.visit .read expression
  | .block body => (fun body => ⟨span, .block body⟩) <$> walker.visitList .read body
  | .returnStatement argument =>
      (fun argument => ⟨span, .returnStatement argument⟩) <$> walker.visitOption .read argument
  | .ifStatement test consequent alternate =>
      (fun test consequent alternate => ⟨span, .ifStatement test consequent alternate⟩) <$>
        walker.visit .read test <*> walker.visit .read consequent <*>
        walker.visitOption .read alternate
  | .declaration form declarators =>
      (fun declarators => ⟨span, .declaration form declarators⟩) <$>
        walker.visitList .read declarators
  | .declarator target init =>
      (fun target init => ⟨span, .declarator target init⟩) <$>
        walker.visit .pattern target <*> walker.visitOption .read init
  | .functionDeclaration name params body =>
      (fun params body => ⟨span, .functionDeclaration name params body⟩) <$>
        walker.visitList .pattern params <*> walker.visit .read body
  | .functionExpression name params body =>
      (fun params body => ⟨span, .functionExpression name params body⟩) <$>
        walker.visitList .pattern params <*> walker.visit .read body
  | .arrowFunction params body =>
      (fun params body => ⟨span, .arrowFunction params body⟩) <$>
        walker.visitList .pattern params <*> walker.visit .read body
  | .classDeclaration name superClass body =>
      (fun superClass body => ⟨span, .classDeclaration name superClass body⟩) <$>
        walker.visitOption .read superClass <*> walker.visitList .read body
  | .method home form key computed params body =>
      (fun key params body => ⟨span, .method home form key computed params body⟩) <$>
        walker.visit (.key computed) key <*> walker.visitList .pattern params <*>
        walker.visit .read body
  | .identifier name =>
      match position with
      | .read => walker.substitute name ⟨span, .identifier name⟩
      | _ => pure ⟨span, .identifier name⟩
  | .leaf content => pure ⟨span, .leaf content⟩
  | .template quasis expressions =>
      (fun expressions => ⟨span, .template quasis expressions⟩) <$>
        walker.visitList .read expressions
  | .taggedTemplate tag quasi =>
      (fun tag quasi => ⟨span, .taggedTemplate tag quasi⟩) <$>
        walker.visit .read tag <*> walker.visit .read quasi
  | .member object property computed => do
      let node ← (fun object property => ⟨span, .member object property computed⟩) <$>
        walker.visit .read object <*>
        walker.visit (position.memberProperty computed property) property
      match position, Node.chainTail? ⟨span, .member object property computed⟩ with
      | .read, some tail => walker.substitute (node.chainName tail) node
      | _, _ => pure node
  | .call callee arguments =>
      match versionCall? callee arguments, walker.bareCall? with
      | some .own, some literal =>
          walker.replace versionName literal ⟨span, .call callee arguments⟩
      | some (.dependency package), _ => do
          let version ← walker.version package
          walker.replace versionName (Node.string version) ⟨span, .call callee arguments⟩
      | _, _ =>
          (fun callee arguments => ⟨span, .call callee arguments⟩) <$>
            walker.visit (.callee callee) callee <*>
            walker.visitArguments callee.canonicalText arguments
  | .construct callee arguments =>
      (fun callee arguments => ⟨span, .construct callee arguments⟩) <$>
        walker.visit .read callee <*> walker.visitList .read arguments
  | .unary operator leading argument =>
      (fun argument => ⟨span, .unary operator leading argument⟩) <$> walker.visit .read argument
  | .update operator leading argument =>
      (fun argument => ⟨span, .update operator leading argument⟩) <$>
        walker.visit .pattern argument
  | .operation family operator left right =>
      (fun left right => ⟨span, .operation family operator left right⟩) <$>
        walker.visit .read left <*> walker.visit .read right
  | .assignment operator left right =>
      (fun left right => ⟨span, .assignment operator left right⟩) <$>
        walker.visit .pattern left <*> walker.visit .read right
  | .conditional test consequent alternate =>
      (fun test consequent alternate => ⟨span, .conditional test consequent alternate⟩) <$>
        walker.visit .read test <*> walker.visit .read consequent <*> walker.visit .read alternate
  | .spread argument =>
      (fun argument => ⟨span, .spread argument⟩) <$> walker.visit position.part argument
  | .assignmentPattern left right =>
      (fun left right => ⟨span, .assignmentPattern left right⟩) <$>
        walker.visit .pattern left <*> walker.visit .read right
  | .array elements =>
      (fun elements => ⟨span, .array elements⟩) <$> walker.visitSlots position.part elements
  | .object properties =>
      (fun properties => ⟨span, .object properties⟩) <$>
        walker.visitList position.propertyOf properties
  | .property key value computed =>
      (fun key value => ⟨span, .property key value computed⟩) <$>
        walker.visit (.key computed) key <*> walker.visit position.valueOf value

/-- Walk over every node of a list. -/
def visitList (walker : Walker m) (position : Position) : List Node → m (List Node)
  | [] => pure []
  | node :: rest => List.cons <$> walker.visit position node <*> walker.visitList position rest

/-- Walk over every node of an array; holes stay. -/
def visitSlots (walker : Walker m) (position : Position) :
    List (Option Node) → m (List (Option Node))
  | [] => pure []
  | none :: rest => (none :: ·) <$> walker.visitSlots position rest
  | some node :: rest =>
      (fun node rest => some node :: rest) <$>
        walker.visit position node <*> walker.visitSlots position rest

/-- Walk over an optional node. -/
def visitOption (walker : Walker m) (position : Position) : Option Node → m (Option Node)
  | none => pure none
  | some node => some <$> walker.visit position node

/-- Walk over the arguments of a callee with the given text. -/
def visitArguments (walker : Walker m) (calleeText : String) : List Node → m (List Node)
  | [] => pure []
  | node :: rest =>
      List.cons <$> walker.visit (.argument calleeText node) node <*>
        walker.visitArguments calleeText rest

end

end Walker

namespace Rules

/-- The walker that keeps to the rules and traces what happens. -/
def tracer (rules : Rules) : Walker Traced where
  literal? := rules.literal?
  bareCall? := rules.bareCall?
  replaced name := .after (.replaced name) ()
  version package := .after (.asked package) (rules.version package)

/-- The walk over a node under the rules, with what happens on it. -/
def visit (rules : Rules) (position : Position) (node : Node) : Traced Node :=
  rules.tracer.visit position node

/-- The packages whose versions a tree asks for, in order. No rule has a say in it. -/
def packagesOf (root : Node) : List String := (silent.visit .read root).packages

end Rules

end Imprint
