/-
Module: Imprint.Proofs.Children
Purpose: Kinds of syntax as containers of their children. A kind is its shape, which is all that is left
  when the children are forgotten, and the children in the order of the source text. Whatever holds of
  a node when it holds of its children holds of every node.
Main exports: Kind.map, Kind.children, Kind.shape, Kind.children_map, Node.childInduction, Node.nodes
-/
import Imprint.Node
import Mathlib.Data.List.Forall2

namespace Imprint

variable {α β γ : Type}

namespace Kind

/-- The same syntax with other children. -/
def map (f : α → β) : Kind α → Kind β
  | .program body => .program (body.map f)
  | .expressionStatement expression => .expressionStatement (f expression)
  | .block body => .block (body.map f)
  | .returnStatement argument => .returnStatement (argument.map f)
  | .ifStatement test consequent alternate =>
      .ifStatement (f test) (f consequent) (alternate.map f)
  | .declaration form declarators => .declaration form (declarators.map f)
  | .declarator target init => .declarator (f target) (init.map f)
  | .functionDeclaration name params body => .functionDeclaration (f name) (params.map f) (f body)
  | .functionExpression name params body =>
      .functionExpression (name.map f) (params.map f) (f body)
  | .arrowFunction params body => .arrowFunction (params.map f) (f body)
  | .classDeclaration name superClass body =>
      .classDeclaration (name.map f) (superClass.map f) (body.map f)
  | .method home form key computed params body =>
      .method home form (f key) computed (params.map f) (f body)
  | .identifier name => .identifier name
  | .leaf content => .leaf content
  | .template quasis expressions => .template quasis (expressions.map f)
  | .taggedTemplate tag quasi => .taggedTemplate (f tag) (f quasi)
  | .member owner part computed => .member (f owner) (f part) computed
  | .call callee arguments => .call (f callee) (arguments.map f)
  | .construct callee arguments => .construct (f callee) (arguments.map f)
  | .unary operator leading argument => .unary operator leading (f argument)
  | .update operator leading argument => .update operator leading (f argument)
  | .operation family operator left right => .operation family operator (f left) (f right)
  | .assignment operator left right => .assignment operator (f left) (f right)
  | .conditional test consequent alternate => .conditional (f test) (f consequent) (f alternate)
  | .spread argument => .spread (f argument)
  | .assignmentPattern left right => .assignmentPattern (f left) (f right)
  | .array elements => .array (elements.map (Option.map f))
  | .object properties => .object (properties.map f)
  | .property key value computed => .property (f key) (f value) computed

/-- The children in source order, without holes and what is left out. -/
def children : Kind α → List α
  | .program body => body
  | .expressionStatement expression => [expression]
  | .block body => body
  | .returnStatement argument => argument.toList
  | .ifStatement test consequent alternate => test :: consequent :: alternate.toList
  | .declaration _ declarators => declarators
  | .declarator target init => target :: init.toList
  | .functionDeclaration name params body => name :: (params ++ [body])
  | .functionExpression name params body => name.toList ++ (params ++ [body])
  | .arrowFunction params body => params ++ [body]
  | .classDeclaration name superClass body => name.toList ++ (superClass.toList ++ body)
  | .method _ _ key _ params body => key :: (params ++ [body])
  | .identifier _ => []
  | .leaf _ => []
  | .template _ expressions => expressions
  | .taggedTemplate tag quasi => [tag, quasi]
  | .member owner part _ => [owner, part]
  | .call callee arguments => callee :: arguments
  | .construct callee arguments => callee :: arguments
  | .unary _ _ argument => [argument]
  | .update _ _ argument => [argument]
  | .operation _ _ left right => [left, right]
  | .assignment _ left right => [left, right]
  | .conditional test consequent alternate => [test, consequent, alternate]
  | .spread argument => [argument]
  | .assignmentPattern left right => [left, right]
  | .array elements => elements.flatMap Option.toList
  | .object properties => properties
  | .property key value _ => [key, value]

/-- What is left of a kind when its children are forgotten: its constructor, everything in it that is
no child, how many children stand in each of its places, and where holes are. -/
def shape (kind : Kind α) : Kind Unit := kind.map fun _ => ()

theorem optionMap_toList (f : α → β) (option : Option α) :
    (option.map f).toList = option.toList.map f := by
  cases option <;> rfl

/-- Changing the children of a node one by one leaves as many, in the same order. -/
theorem children_map (f : α → β) (kind : Kind α) :
    (kind.map f).children = kind.children.map f := by
  cases kind <;>
    simp [map, children, optionMap_toList, List.flatMap_map, List.map_flatMap]

theorem map_map (f : β → γ) (g : α → β) (kind : Kind α) :
    (kind.map g).map f = kind.map fun child => f (g child) := by
  cases kind <;> simp [map, Function.comp_def]

/-- The shape of a node has nothing to do with its children. -/
theorem shape_map (f : α → β) (kind : Kind α) : (kind.map f).shape = kind.shape := by
  rw [shape, shape, map_map]

/-- Mapping looks at nothing but the children. -/
theorem map_congr {f g : α → β} {kind : Kind α}
    (agree : ∀ child ∈ kind.children, f child = g child) : kind.map f = kind.map g := by
  have option {part : Option α} (inside : ∀ child, part = some child → child ∈ kind.children) :
      part.map f = part.map g :=
    Option.map_congr fun child eq => agree child (inside child eq)
  cases kind with
  | array elements =>
      refine congrArg array (List.map_congr_left fun element mem => option fun child eq => ?_)
      subst eq
      simpa [children] using mem
  | _ => simp_all [map, children]

theorem map_id (kind : Kind α) : (kind.map fun child => child) = kind := by
  cases kind <;> simp [map]

/-- A child is smaller than the kind it stands in. -/
theorem sizeOf_lt_of_mem_children [SizeOf α] {kind : Kind α} {child : α}
    (mem : child ∈ kind.children) : sizeOf child < sizeOf kind := by
  have inList {list : List α} (mem : child ∈ list) : sizeOf child < sizeOf list :=
    List.sizeOf_lt_of_mem mem
  have inOption {part : Option α} (eq : part = some child) : sizeOf child < sizeOf part := by
    subst eq
    simp
  cases kind with
  | array elements =>
      simp only [children, List.mem_flatMap, Option.mem_toList] at mem
      obtain ⟨element, mem, eq⟩ := mem
      have outer : sizeOf element < sizeOf elements := List.sizeOf_lt_of_mem mem
      have inner : sizeOf child < sizeOf element := inOption eq
      simp only [array.sizeOf_spec]
      omega
  | _ =>
      simp [children] at mem ⊢
      try grind

end Kind

namespace Node

/-- A child is smaller than the node it stands in. -/
theorem sizeOf_lt_of_mem_children {node child : Node} (mem : child ∈ node.kind.children) :
    sizeOf child < sizeOf node := by
  obtain ⟨span, kind⟩ := node
  have inKind : sizeOf child < sizeOf kind := Kind.sizeOf_lt_of_mem_children mem
  simp only [mk.sizeOf_spec]
  omega

/-- Whatever holds of a node as soon as it holds of its children holds of every node. -/
@[elab_as_elim]
theorem childInduction {motive : Node → Prop}
    (step : ∀ node : Node, (∀ child ∈ node.kind.children, motive child) → motive node)
    (node : Node) : motive node :=
  step node fun child mem =>
    have := sizeOf_lt_of_mem_children mem
    childInduction step child
termination_by sizeOf node

/-- All nodes of a tree, a node before its children. -/
def nodes (node : Node) : List Node :=
  node :: node.kind.children.attach.flatMap fun child => nodes child.1
termination_by sizeOf node
decreasing_by exact sizeOf_lt_of_mem_children child.2

/-- The nodes of a tree are its root and then the nodes of its children, in order. -/
theorem nodes_eq (node : Node) : node.nodes = node :: node.kind.children.flatMap nodes := by
  rw [nodes, List.flatMap_subtype, List.unattach_attach]
  intro child mem
  rfl

theorem mem_nodes_self (node : Node) : node ∈ node.nodes := by
  rw [nodes_eq]
  exact List.mem_cons_self

/-- The nodes of a child are nodes of the tree. -/
theorem mem_nodes_of_mem_children {node child other : Node} (mem : child ∈ node.kind.children)
    (inside : other ∈ child.nodes) : other ∈ node.nodes := by
  rw [nodes_eq]
  exact List.mem_cons_of_mem node (List.mem_flatMap.mpr ⟨child, mem, inside⟩)

end Node

end Imprint
