/-
Module: Imprint.Proofs.WalkSteps
Purpose: One step of the walk. The walk over a node is the walk over its children, each in the position
  that it has there, followed by at most one replacement of the node itself. Every fact about the walk
  rests on this step and on induction over children.
Main exports: Kind.placed, Rules.rebuilt, Rules.replacement?, Rules.value_visit, Rules.events_visit,
  Reaches, Rules.mem_events_visit, Rules.Replaces, Rules.visit_eq_of_agree,
  Rules.visit_eq_of_versions
-/
import Imprint.Proofs.Children
import Imprint.Substitution.Walk

namespace Imprint

/-! ### The children and their positions -/

/-- The children of a kind of syntax in a position, each with the position it has there. -/
def Kind.placed (position : Position) : Kind Node → Kind (Position × Node)
  | .declarator target init => .declarator (.pattern, target) (init.map (.read, ·))
  | .functionDeclaration name params body =>
      .functionDeclaration (.kept, name) (params.map (.pattern, ·)) (.read, body)
  | .functionExpression name params body =>
      .functionExpression (name.map (.kept, ·)) (params.map (.pattern, ·)) (.read, body)
  | .arrowFunction params body => .arrowFunction (params.map (.pattern, ·)) (.read, body)
  | .classDeclaration name superClass body =>
      .classDeclaration (name.map (.kept, ·)) (superClass.map (.read, ·)) (body.map (.read, ·))
  | .method home form key computed params body =>
      .method home form (.key computed, key) computed (params.map (.pattern, ·)) (.read, body)
  | .member owner part computed =>
      .member (.read, owner) (position.memberProperty computed part, part) computed
  | .call callee arguments =>
      .call (.callee callee, callee)
        (arguments.map fun argument => (.argument callee.canonicalText argument, argument))
  | .update operator leading argument => .update operator leading (.pattern, argument)
  | .assignment operator left right => .assignment operator (.pattern, left) (.read, right)
  | .spread argument => .spread (position.part, argument)
  | .assignmentPattern left right => .assignmentPattern (.pattern, left) (.read, right)
  | .array elements => .array (elements.map (Option.map (position.part, ·)))
  | .object properties => .object (properties.map (position.propertyOf, ·))
  | .property key value computed =>
      .property (.key computed, key) (position.valueOf, value) computed
  | kind => kind.map (.read, ·)

/-- Positions are all that is added. -/
theorem Kind.map_placed {α : Type} (f : Node → α) (position : Position) (kind : Kind Node) :
    ((kind.placed position).map fun child => f child.2) = kind.map f := by
  cases kind <;> simp [placed, map, Function.comp_def]

/-- The children of a node and their positions; inside a node that is kept all is kept. -/
def Node.places (position : Position) (node : Node) : Kind (Position × Node) :=
  if position = .kept then node.kind.map (.kept, ·) else node.kind.placed position

/-- Changing the children along with their positions is changing the children. -/
theorem Node.map_places {α : Type} (f : Node → α) (position : Position) (node : Node) :
    ((node.places position).map fun child => f child.2) = node.kind.map f := by
  unfold places
  split
  · exact Kind.map_map _ _ _
  · exact Kind.map_placed f position node.kind

/-- Without the positions, the places of a node are the node. -/
theorem Node.map_snd_places (position : Position) (node : Node) :
    (node.places position).map Prod.snd = node.kind :=
  (node.map_places (fun child => child) position).trans (Kind.map_id node.kind)

theorem Node.map_children_places (position : Position) (node : Node) :
    (node.places position).children.map Prod.snd = node.kind.children := by
  rw [← Kind.children_map, node.map_snd_places]

/-- What the walk goes on to is a child. -/
theorem Node.mem_children_of_mem_places {position : Position} {node : Node}
    {child : Position × Node} (mem : child ∈ (node.places position).children) :
    child.2 ∈ node.kind.children := by
  rw [← node.map_children_places position]
  exact List.mem_map_of_mem mem

/-- The parts of a member, in any position in which it is walked over. -/
theorem Node.children_places_member {position : Position} (ne : position ≠ .kept) (span : Span)
    (owner part : Node) (computed : Bool) :
    (Node.places position ⟨span, .member owner part computed⟩).children =
      [(.read, owner), (position.memberProperty computed part, part)] := by
  simp [places, ne, Kind.placed, Kind.children]

/-- The walk over a node in a position comes to another node in a position. -/
inductive Reaches : Position → Node → Position → Node → Prop where
  | here {position : Position} {node : Node} : Reaches position node position node
  | inside {position : Position} {node : Node} {child : Position × Node} {other : Position}
      {target : Node} (mem : child ∈ (node.places position).children)
      (rest : Reaches child.1 child.2 other target) : Reaches position node other target

/-- The walk comes to nothing but nodes of the tree. -/
theorem Reaches.mem_nodes {position other : Position} {root node : Node}
    (reaches : Reaches position root other node) : node ∈ root.nodes := by
  induction reaches with
  | here => exact Node.mem_nodes_self _
  | inside mem _ ih => exact Node.mem_nodes_of_mem_children (Node.mem_children_of_mem_places mem) ih

/-- A walk that comes to a node goes on from there as it would start there. -/
theorem Reaches.trans {position other last : Position} {root node target : Node}
    (reaches : Reaches position root other node) (onward : Reaches other node last target) :
    Reaches position root last target := by
  induction reaches with
  | here => exact onward
  | inside mem _ ih => exact .inside mem (ih onward)

namespace Walker

variable {m : Type → Type} [Monad m] (walker : Walker m)

/-- What is kept is not walked over. -/
theorem visit_kept (node : Node) : walker.visit .kept node = pure node := by
  unfold visit
  rfl

/-- A node that is not left alone is walked over as its kind demands. -/
theorem visit_of_ne_kept {position : Position} (ne : position ≠ .kept) (span : Span)
    (kind : Kind Node) :
    walker.visit position ⟨span, kind⟩ = walker.visitKind position span kind := by
  cases position <;> first | exact absurd rfl ne | (unfold visit; rfl)

end Walker

namespace Rules

variable (rules : Rules)

@[simp] theorem visit_tracer (position : Position) (node : Node) :
    rules.tracer.visit position node = rules.visit position node := rfl

@[simp] theorem literal?_tracer : rules.tracer.literal? = rules.literal? := rfl

@[simp] theorem bareCall?_tracer : rules.tracer.bareCall? = rules.bareCall? := rfl

@[simp] theorem events_replace (name : String) (literal node : Node) :
    (rules.tracer.replace name literal node).events = [.replaced name] := rfl

/-! ### Lists, slots and options of children -/

/-- A list is walked over node by node. -/
theorem value_visitList (position : Position) (nodes : List Node) :
    (rules.tracer.visitList position nodes).value =
      nodes.map fun node => (rules.visit position node).value := by
  induction nodes with
  | nil => rfl
  | cons node rest ih => simp [Walker.visitList, ih]

/-- What happens on the way over a list happens at one node after the other. -/
theorem events_visitList (position : Position) (nodes : List Node) :
    (rules.tracer.visitList position nodes).events =
      nodes.flatMap fun node => (rules.visit position node).events := by
  induction nodes with
  | nil => rfl
  | cons node rest ih => simp [Walker.visitList, ih]

/-- An array is walked over element by element, and its holes stay. -/
theorem value_visitSlots (position : Position) (slots : List (Option Node)) :
    (rules.tracer.visitSlots position slots).value =
      slots.map (Option.map fun node => (rules.visit position node).value) := by
  induction slots with
  | nil => rfl
  | cons slot rest ih => cases slot <;> simp [Walker.visitSlots, ih]

theorem events_visitSlots (position : Position) (slots : List (Option Node)) :
    (rules.tracer.visitSlots position slots).events =
      slots.flatMap fun slot =>
        slot.toList.flatMap fun node => (rules.visit position node).events := by
  induction slots with
  | nil => rfl
  | cons slot rest ih => cases slot <;> simp [Walker.visitSlots, ih]

theorem value_visitOption (position : Position) (option : Option Node) :
    (rules.tracer.visitOption position option).value =
      option.map fun node => (rules.visit position node).value := by
  cases option <;> simp [Walker.visitOption]

theorem events_visitOption (position : Position) (option : Option Node) :
    (rules.tracer.visitOption position option).events =
      option.toList.flatMap fun node => (rules.visit position node).events := by
  cases option <;> simp [Walker.visitOption]

/-- Every argument is walked over in the position that it has for its callee. -/
theorem value_visitArguments (calleeText : String) (nodes : List Node) :
    (rules.tracer.visitArguments calleeText nodes).value =
      nodes.map fun node => (rules.visit (.argument calleeText node) node).value := by
  induction nodes with
  | nil => rfl
  | cons node rest ih => simp [Walker.visitArguments, ih]

theorem events_visitArguments (calleeText : String) (nodes : List Node) :
    (rules.tracer.visitArguments calleeText nodes).events =
      nodes.flatMap fun node => (rules.visit (.argument calleeText node) node).events := by
  induction nodes with
  | nil => rfl
  | cons node rest ih => simp [Walker.visitArguments, ih]

/-! ### One step -/

/-- A node whose children were walked over. -/
def rebuilt (position : Position) (node : Node) : Node :=
  ⟨node.span, (node.places position).map fun child => (rules.visit child.1 child.2).value⟩

/-- The name under which a node is read: that of an identifier, or the dotted name of a member chain,
which is made of the chain after the walk over its parts. -/
def readName? (node : Node) : Option String :=
  match node.kind with
  | .identifier name => some name
  | .member .. => node.chainTail?.map (rules.rebuilt .read node).chainName
  | _ => none

/-- The literal for a call of the package version. -/
def callLiteral? (callee : Node) (arguments : List Node) : Option Node :=
  match versionCall? callee arguments with
  | some .own => rules.bareCall?
  | some (.dependency package) => some (Node.string (rules.version package))
  | none => none

/-- The name under which the walk replaces a node, and the literal it puts in its place. -/
def replacement? (position : Position) (node : Node) : Option (String × Node) :=
  match node.kind with
  | .call callee arguments =>
      if position = .kept then none
      else (rules.callLiteral? callee arguments).map fun literal => (versionName, literal)
  | _ =>
      if position = .read then
        (rules.readName? node).bind fun name =>
          (rules.literal? name).map fun literal => (name, literal)
      else none

/-- The package whose version the walk asks for at a node itself. -/
def asked? (position : Position) (node : Node) : Option String :=
  match node.kind with
  | .call callee arguments =>
      match versionCall? callee arguments with
      | some (.dependency package) => if position = .kept then none else some package
      | _ => none
  | _ => none

/-- What happens at a node itself, after the walk over its children. -/
def ownEvents (position : Position) (node : Node) : List Event :=
  ((asked? position node).map Event.asked).toList ++
    ((rules.replacement? position node).map fun found => Event.replaced found.1).toList

/-- A question for a package happens at the calls that ask for it. -/
theorem asked_mem_ownEvents {position : Position} {node : Node} {package : String} :
    .asked package ∈ rules.ownEvents position node ↔ asked? position node = some package := by
  simp [ownEvents]

/-- A replacement happens at the nodes that are replaced. -/
theorem replaced_mem_ownEvents {position : Position} {node : Node} {name : String} :
    .replaced name ∈ rules.ownEvents position node ↔
      ∃ literal, rules.replacement? position node = some (name, literal) := by
  simp [ownEvents]

/-- Nodes that are no calls are replaced where they are read. -/
theorem replacement?_of_no_call {position : Position} {node : Node}
    (noCall : ∀ callee arguments, node.kind ≠ .call callee arguments) :
    rules.replacement? position node =
      if position = .read then
        (rules.readName? node).bind fun name =>
          (rules.literal? name).map fun literal => (name, literal)
      else none := by
  unfold replacement?
  split
  · rename_i call
    exact absurd call (noCall _ _)
  · rfl

/-- Only calls ask for packages. -/
theorem asked?_of_no_call {position : Position} {node : Node}
    (noCall : ∀ callee arguments, node.kind ≠ .call callee arguments) :
    asked? position node = none := by
  unfold asked?
  split
  · rename_i call
    exact absurd call (noCall _ _)
  · rfl

/-- A member is read under the name of its chain, as the walk leaves it. -/
theorem readName?_of_isMember {node : Node} (isMember : node.isMember) :
    rules.readName? node = node.chainTail?.map (rules.rebuilt .read node).chainName := by
  obtain ⟨span, kind⟩ := node
  cases kind <;> first | rfl | cases isMember

theorem no_call_of_isMember {node : Node} (isMember : node.isMember) (callee : Node)
    (arguments : List Node) : node.kind ≠ .call callee arguments := by
  intro eq
  rw [Node.isMember, eq] at isMember
  cases isMember

theorem visit_kept (node : Node) : rules.visit .kept node = pure node :=
  rules.tracer.visit_kept node

theorem visit_of_ne_kept {position : Position} (ne : position ≠ .kept) (span : Span)
    (kind : Kind Node) :
    rules.visit position ⟨span, kind⟩ = rules.tracer.visitKind position span kind :=
  rules.tracer.visit_of_ne_kept ne span kind

/-- What is left alone is not replaced. -/
theorem replacement?_kept (node : Node) : rules.replacement? .kept node = none := by
  unfold replacement?
  split <;> rfl

/-- A name gives way to its literal, with the span of the node, if there is one. -/
theorem value_substitute (name : String) (node : Node) :
    (rules.tracer.substitute name node).value =
      match rules.literal? name with
      | some literal => literal.withSpan node.span
      | none => node := by
  rw [Walker.substitute, literal?_tracer]
  cases rules.literal? name <;> rfl

/-- The substitution of a name is one replacement, if there is a literal for it. -/
theorem events_substitute (name : String) (node : Node) :
    (rules.tracer.substitute name node).events =
      ((rules.literal? name).map fun _ => Event.replaced name).toList := by
  rw [Walker.substitute, literal?_tracer]
  cases rules.literal? name <;> rfl

/-- A member whose parts were walked over. -/
theorem rebuilt_member {position : Position} (ne : position ≠ .kept) (span : Span)
    (owner part : Node) (computed : Bool) :
    rules.rebuilt position ⟨span, .member owner part computed⟩ =
      ⟨span, .member (rules.visit .read owner).value
        (rules.visit (position.memberProperty computed part) part).value computed⟩ := by
  simp [rebuilt, Node.places, ne, Kind.placed, Kind.map]

theorem asked?_kept (node : Node) : asked? .kept node = none := by
  unfold asked?
  split
  · split <;> rfl
  · rfl

/-- The value of a walk over a node: the literal that replaces it, or the node made up anew. -/
theorem value_visit (position : Position) (node : Node) :
    (rules.visit position node).value =
      match rules.replacement? position node with
      | some (_, literal) => literal.withSpan node.span
      | none => rules.rebuilt position node := by
  obtain ⟨span, kind⟩ := node
  by_cases kept : position = .kept
  · subst kept
    simp [visit_kept, replacement?_kept, rebuilt, Node.places, Kind.map_map, Kind.map_id]
  rw [visit_of_ne_kept rules kept]
  have places : Node.places position ⟨span, kind⟩ = kind.placed position := if_neg kept
  cases kind with
  | identifier name =>
      cases position with
      | read =>
          simp only [Walker.visitKind, value_substitute, replacement?, readName?,
            Option.bind_some, if_true]
          cases rules.literal? name <;> simp [rebuilt, places, Kind.placed, Kind.map]
      | _ => simp [Walker.visitKind, replacement?, rebuilt, places, Kind.placed, Kind.map]
  | member owner part computed =>
      have made := rules.rebuilt_member kept span owner part computed
      cases position with
      | read =>
          cases ends : Node.chainTail? ⟨span, .member owner part computed⟩ with
          | none => simp [Walker.visitKind, replacement?, readName?, ends, made]
          | some tail =>
              simp only [Walker.visitKind, visit_tracer, replacement?, readName?, ends, made,
                Traced.value_bind, Traced.value_seq, Traced.value_map, value_substitute,
                Option.map_some, Option.bind_some, if_true]
              cases rules.literal? _ <;> rfl
      | _ => simp [Walker.visitKind, replacement?, made]
  | call callee arguments =>
      have made : rules.rebuilt position ⟨span, .call callee arguments⟩ =
          ⟨span, .call (rules.visit (.callee callee) callee).value
            (rules.tracer.visitArguments callee.canonicalText arguments).value⟩ := by
        simp [rebuilt, places, Kind.placed, Kind.map, value_visitArguments, Function.comp_def]
      simp only [Walker.visitKind, visit_tracer, bareCall?_tracer, replacement?, callLiteral?,
        made, if_neg kept]
      cases versionCall? callee arguments with
      | none => rfl
      | some use =>
          cases use with
          | own => cases rules.bareCall? <;> rfl
          | dependency package => rfl
  | _ =>
      simp [Walker.visitKind, replacement?, readName?, rebuilt, places, Kind.placed, Kind.map,
        value_visitList, value_visitOption, value_visitSlots, visit_kept, Function.comp_def]

/-- A node that stays keeps its shape. -/
theorem shape_rebuilt (position : Position) (node : Node) :
    (rules.rebuilt position node).kind.shape = node.kind.shape := by
  rw [rebuilt, Kind.shape_map]
  exact node.map_places (fun _ => ()) position

/-- Whatever is blind to the children of a node sees no difference when they are made up anew. -/
theorem look_rebuilt {α : Type} (look : Node → α)
    (blind : ∀ (span : Span) (f g : Position × Node → Node) (kind : Kind (Position × Node)),
      look ⟨span, kind.map f⟩ = look ⟨span, kind.map g⟩)
    (position : Position) (node : Node) : look (rules.rebuilt position node) = look node := by
  rw [rebuilt, blind _ _ Prod.snd, node.map_snd_places]
  cases node
  rfl

/-- A member that stays is a member. -/
theorem isMember_rebuilt (position : Position) (node : Node) :
    (rules.rebuilt position node).isMember = node.isMember := by
  apply rules.look_rebuilt Node.isMember
  intro span f g kind
  cases kind <;> rfl

/-- An identifier that stays keeps its name. -/
theorem identifier?_rebuilt (position : Position) (node : Node) :
    (rules.rebuilt position node).identifier? = node.identifier? := by
  apply rules.look_rebuilt Node.identifier?
  intro span f g kind
  cases kind <;> rfl

/-- Some of the children, made up anew, stand one by one for those that were there. -/
theorem forall₂_select (select : (α : Type) → Kind α → List α)
    (natural : ∀ (α β : Type) (f : α → β) (kind : Kind α),
      select β (kind.map f) = (select α kind).map f)
    {R : Node → Node → Prop} (position : Position) (node : Node)
    (each : ∀ child ∈ select _ (node.places position),
      R child.2 (rules.visit child.1 child.2).value) :
    List.Forall₂ R (select _ node.kind) (select _ (rules.rebuilt position node).kind) := by
  have before : (select _ (node.places position)).map Prod.snd = select _ node.kind := by
    rw [← natural, node.map_snd_places]
  rw [← before, rebuilt, natural, List.forall₂_map_left_iff, List.forall₂_map_right_iff]
  exact List.forall₂_same.mpr each

/-- What relates every child to what becomes of it relates the children of a node to those it has after
the walk. -/
theorem forall₂_rebuilt {R : Node → Node → Prop} {position : Position} {node : Node}
    (each : ∀ child ∈ (node.places position).children,
      R child.2 (rules.visit child.1 child.2).value) :
    List.Forall₂ R node.kind.children (rules.rebuilt position node).kind.children :=
  rules.forall₂_select (fun _ => Kind.children) (fun _ _ => Kind.children_map) position node each

/-! ### What happens on the way -/

/-- What a call of the package version looks like. -/
theorem versionCall?_eq_some {callee : Node} {arguments : List Node} {use : VersionCall}
    (eq : versionCall? callee arguments = some use) :
    callee.identifier? = some versionName ∧
      ((use = .own ∧ arguments = []) ∨
        ∃ argument package, use = .dependency package ∧ arguments = [argument] ∧
          argument.text? = some package) := by
  unfold versionCall? at eq
  split at eq
  case isFalse => cases eq
  case isTrue called =>
      refine ⟨called, ?_⟩
      split at eq
      · exact .inl ⟨(Option.some.inj eq).symm, rfl⟩
      · rename_i argument
        obtain ⟨package, text, rfl⟩ := Option.map_eq_some_iff.mp eq
        exact .inr ⟨argument, package, rfl, rfl, text⟩
      · cases eq

/-- A package is asked for at a call of the package version with one string literal. -/
theorem asked?_eq_some {position : Position} {node : Node} {package : String}
    (asked : asked? position node = some package) :
    ∃ span callee argument, node = ⟨span, .call callee [argument]⟩ ∧
      callee.identifier? = some versionName ∧ argument.text? = some package := by
  obtain ⟨span, kind⟩ := node
  cases kind with
  | call callee arguments =>
      unfold asked? at asked
      dsimp only at asked
      split at asked
      · rename_i dependency uses
        obtain ⟨-, eq⟩ := Option.ite_none_left_eq_some.mp asked
        obtain rfl := Option.some.inj eq
        obtain ⟨called, ⟨own, -⟩ | ⟨argument, _, same, rfl, text⟩⟩ := versionCall?_eq_some uses
        · cases own
        · cases same
          exact ⟨span, callee, argument, rfl, called, text⟩
      · cases asked
  | _ => cases asked

/-- The four ways in which a node is replaced: an identifier or a member chain that is read and has a
rule, and the two calls of the package version. -/
theorem replacement?_cases {position : Position} {node : Node} {name : String} {literal : Node}
    (eq : rules.replacement? position node = some (name, literal)) :
    (∃ span, node = ⟨span, .identifier name⟩ ∧ position = .read ∧
        rules.literal? name = some literal) ∨
      (∃ span owner part computed tail, node = ⟨span, .member owner part computed⟩ ∧
        position = .read ∧ node.chainTail? = some tail ∧
        name = (rules.rebuilt .read node).chainName tail ∧ rules.literal? name = some literal) ∨
      (∃ span callee, node = ⟨span, .call callee []⟩ ∧ position ≠ .kept ∧
        callee.identifier? = some versionName ∧ name = versionName ∧
        rules.bareCall? = some literal) ∨
      (∃ span callee argument package, node = ⟨span, .call callee [argument]⟩ ∧
        position ≠ .kept ∧ callee.identifier? = some versionName ∧
        argument.text? = some package ∧ name = versionName ∧
        literal = Node.string (rules.version package)) := by
  obtain ⟨span, kind⟩ := node
  unfold replacement? at eq
  cases kind with
  | identifier spelled =>
      obtain ⟨read, eq⟩ := Option.ite_none_right_eq_some.mp eq
      simp only [readName?, Option.bind_some, Option.map_eq_some_iff, Prod.mk.injEq] at eq
      obtain ⟨_, rule, rfl, rfl⟩ := eq
      exact .inl ⟨span, rfl, read, rule⟩
  | member owner part computed =>
      obtain ⟨read, eq⟩ := Option.ite_none_right_eq_some.mp eq
      simp only [readName?, Option.bind_map, Option.bind_eq_some_iff, Function.comp_apply,
        Option.map_eq_some_iff, Prod.mk.injEq] at eq
      obtain ⟨tail, ends, _, rule, rfl, rfl⟩ := eq
      exact .inr (.inl ⟨span, owner, part, computed, tail, rfl, read, ends, rfl, rule⟩)
  | call callee arguments =>
      obtain ⟨walked, eq⟩ := Option.ite_none_left_eq_some.mp eq
      obtain ⟨found, called, eq⟩ := Option.map_eq_some_iff.mp eq
      obtain ⟨rfl, rfl⟩ := Prod.mk.inj eq
      unfold callLiteral? at called
      cases uses : versionCall? callee arguments with
      | none => simp [uses] at called
      | some use =>
          obtain ⟨spelled, ⟨rfl, rfl⟩ | ⟨argument, package, rfl, rfl, text⟩⟩ :=
            versionCall?_eq_some uses
          · rw [uses] at called
            exact .inr (.inr (.inl ⟨span, callee, rfl, walked, spelled, rfl, called⟩))
          · rw [uses] at called
            exact .inr (.inr (.inr ⟨span, callee, argument, package, rfl, walked, spelled, text,
              rfl, (Option.some.inj called).symm⟩))
  | _ =>
      obtain ⟨-, eq⟩ := Option.ite_none_right_eq_some.mp eq
      simp [readName?] at eq

/-- Nothing happens at a string literal. -/
theorem events_visit_text {node : Node} {text : String} (eq : node.text? = some text)
    (position : Position) : (rules.visit position node).events = [] := by
  obtain ⟨span, kind⟩ := node
  by_cases kept : position = .kept
  · subst kept
    rw [visit_kept]
    rfl
  rw [visit_of_ne_kept rules kept]
  cases kind <;> simp [Node.text?] at eq
  rfl

/-- Nothing happens at the parts of a call of the package version. -/
theorem events_versionCall {callee : Node} {arguments : List Node} {use : VersionCall}
    (eq : versionCall? callee arguments = some use) :
    (rules.visit (.callee callee) callee).events = [] ∧
      (rules.tracer.visitArguments callee.canonicalText arguments).events = [] := by
  obtain ⟨called, own | dependency⟩ := versionCall?_eq_some eq
  · have kept : Position.callee callee = .kept := by simp [Position.callee, called]
    obtain ⟨-, rfl⟩ := own
    rw [kept, visit_kept]
    exact ⟨rfl, rfl⟩
  · have kept : Position.callee callee = .kept := by simp [Position.callee, called]
    obtain ⟨argument, package, -, rfl, text⟩ := dependency
    rw [kept, visit_kept, events_visitArguments]
    exact ⟨rfl, by simp [events_visit_text rules text]⟩

/-- What happens on a walk over a node: what happens at its children, one after the other, and then
at the node itself. -/
theorem events_visit (position : Position) (node : Node) :
    (rules.visit position node).events =
      ((node.places position).children.flatMap fun child =>
        (rules.visit child.1 child.2).events) ++ rules.ownEvents position node := by
  obtain ⟨span, kind⟩ := node
  by_cases kept : position = .kept
  · subst kept
    simp [visit_kept, ownEvents, replacement?_kept, asked?_kept, Node.places, Kind.children_map,
      List.flatMap_map]
  rw [visit_of_ne_kept rules kept]
  have places : Node.places position ⟨span, kind⟩ = kind.placed position := if_neg kept
  cases kind with
  | identifier name =>
      cases position with
      | read =>
          simp only [Walker.visitKind, events_substitute, ownEvents, asked?, replacement?, readName?,
            places, Kind.placed, Kind.map, Kind.children, Option.bind_some, if_true]
          cases rules.literal? name <;> rfl
      | _ =>
          simp [Walker.visitKind, ownEvents, asked?, replacement?, places, Kind.placed, Kind.map,
            Kind.children]
  | member owner part computed =>
      have made := rules.rebuilt_member kept span owner part computed
      cases position with
      | read =>
          cases ends : Node.chainTail? ⟨span, .member owner part computed⟩ with
          | none =>
              simp [Walker.visitKind, ownEvents, asked?, replacement?, readName?, ends, places,
                Kind.placed, Kind.children]
          | some tail =>
              simp only [Walker.visitKind, visit_tracer, ownEvents, asked?, replacement?,
                readName?, ends, made, places, Kind.placed, Kind.children, Traced.events_bind, Traced.events_seq,
                Traced.events_map, Traced.value_seq, Traced.value_map, events_substitute,
                Option.map_some, Option.bind_some, if_true]
              cases rules.literal? _ <;> simp
      | _ => simp [Walker.visitKind, ownEvents, asked?, replacement?, places, Kind.placed, Kind.children]
  | call callee arguments =>
      have parts : ((Node.places position ⟨span, .call callee arguments⟩).children.flatMap
          fun child => (rules.visit child.1 child.2).events) =
            (rules.visit (.callee callee) callee).events ++
              (rules.tracer.visitArguments callee.canonicalText arguments).events := by
        simp [places, Kind.placed, Kind.children, events_visitArguments, List.flatMap_map]
      rw [parts]
      simp only [Walker.visitKind, visit_tracer, bareCall?_tracer, ownEvents, asked?,
        replacement?, callLiteral?, if_neg kept]
      cases uses : versionCall? callee arguments with
      | none => simp
      | some use =>
          obtain ⟨noCallee, noArguments⟩ := rules.events_versionCall uses
          rw [noCallee, noArguments]
          cases use with
          | own => cases bare : rules.bareCall? <;> simp [noCallee, noArguments]
          | dependency package => rfl
  | _ =>
      simp [Walker.visitKind, ownEvents, asked?, replacement?, readName?, places, Kind.placed, Kind.map,
        Kind.children, Kind.optionMap_toList, visit_kept, events_visitList, events_visitOption,
        events_visitSlots, List.flatMap_map, List.flatMap_assoc]

/-- The names replaced on a walk over a node: those replaced inside it, and then its own. -/
theorem replacedNames_visit (position : Position) (node : Node) :
    (rules.visit position node).replacedNames =
      ((node.places position).children.flatMap fun child =>
        (rules.visit child.1 child.2).replacedNames) ++
          ((rules.replacement? position node).map Prod.fst).toList := by
  unfold Traced.replacedNames
  rw [events_visit, List.filterMap_append, List.filterMap_flatMap, ownEvents]
  cases asked? position node <;> cases rules.replacement? position node <;> simp

/-- A node is made up anew as it was when the walk leaves its children as they are. -/
theorem rebuilt_eq_self {position : Position} {node : Node}
    (each : ∀ child ∈ (node.places position).children,
      (rules.visit child.1 child.2).value = child.2) : rules.rebuilt position node = node := by
  rw [rebuilt, Kind.map_congr each, node.map_snd_places]
  cases node
  rfl

/-- A walk that replaces nothing leaves the tree as it is. -/
theorem value_visit_of_replacedNames_nil {position : Position} {node : Node}
    (nothing : (rules.visit position node).replacedNames = []) :
    (rules.visit position node).value = node := by
  induction node using Node.childInduction generalizing position with
  | step node ih =>
      rw [replacedNames_visit, List.append_eq_nil_iff, List.flatMap_eq_nil_iff] at nothing
      obtain ⟨inside, own⟩ := nothing
      have stays : rules.replacement? position node = none := by
        simpa using own
      rw [value_visit, stays]
      apply rules.rebuilt_eq_self
      intro child mem
      exact ih child.2 (Node.mem_children_of_mem_places mem) (inside child mem)

/-- Nothing happens on a walk over a node when nothing happens at its children nor at itself. -/
theorem events_visit_eq_nil {position : Position} {node : Node} :
    (rules.visit position node).events = [] ↔
      (∀ child ∈ (node.places position).children, (rules.visit child.1 child.2).events = []) ∧
        rules.replacement? position node = none ∧ asked? position node = none := by
  rw [events_visit, List.append_eq_nil_iff, List.flatMap_eq_nil_iff, ownEvents,
    List.append_eq_nil_iff, Option.toList_eq_nil_iff, Option.toList_eq_nil_iff,
    Option.map_eq_none_iff, Option.map_eq_none_iff, and_comm (a := asked? position node = none)]

theorem replacedNames_of_events_nil {position : Position} {node : Node}
    (nothing : (rules.visit position node).events = []) :
    (rules.visit position node).replacedNames = [] := by
  rw [Traced.replacedNames, nothing]
  rfl

theorem packages_of_events_nil {position : Position} {node : Node}
    (nothing : (rules.visit position node).events = []) :
    (rules.visit position node).packages = [] := by
  rw [Traced.packages, nothing]
  rfl

/-- The packages asked for on a walk over a node: those asked for inside it, and then its own. -/
theorem packages_visit (position : Position) (node : Node) :
    (rules.visit position node).packages =
      ((node.places position).children.flatMap fun child =>
        (rules.visit child.1 child.2).packages) ++ (asked? position node).toList := by
  unfold Traced.packages
  rw [events_visit, List.filterMap_append, List.filterMap_flatMap, ownEvents]
  cases asked? position node <;> cases rules.replacement? position node <;> simp

/-- The rules have no say in which packages are asked for. -/
theorem packages_visit_eq (other : Rules) (position : Position) (node : Node) :
    (rules.visit position node).packages = (other.visit position node).packages := by
  induction node using Node.childInduction generalizing position with
  | step node ih =>
      rw [packages_visit, packages_visit]
      congr 1
      refine List.flatMap_congr fun child mem => ?_
      exact ih child.2 (Node.mem_children_of_mem_places mem) child.1

/-- Something happens on a walk exactly when it happens at some node that the walk comes to. -/
theorem mem_events_visit {event : Event} {position : Position} {root : Node} :
    event ∈ (rules.visit position root).events ↔
      ∃ other node, Reaches position root other node ∧ event ∈ rules.ownEvents other node := by
  induction root using Node.childInduction generalizing position with
  | step root ih =>
      rw [events_visit, List.mem_append, List.mem_flatMap]
      constructor
      · rintro (⟨child, mem, inside⟩ | own)
        · obtain ⟨other, node, reaches, happens⟩ :=
            (ih child.2 (Node.mem_children_of_mem_places mem)).mp inside
          exact ⟨other, node, .inside mem reaches, happens⟩
        · exact ⟨position, root, .here, own⟩
      · rintro ⟨other, node, reaches, happens⟩
        cases reaches with
        | here => exact .inr happens
        | inside mem rest =>
            refine .inl ⟨_, mem, ?_⟩
            exact (ih _ (Node.mem_children_of_mem_places mem)).mpr ⟨other, node, rest, happens⟩

/-- A package is asked for on a walk exactly when it is asked for at some node. -/
theorem mem_packages_visit {package : String} {position : Position} {root : Node} :
    package ∈ (rules.visit position root).packages ↔
      ∃ other node, Reaches position root other node ∧ asked? other node = some package := by
  simp only [Traced.mem_packages, mem_events_visit, asked_mem_ownEvents]

/-- A tree asks for no package when it is asked for none at any node that the walk comes to. -/
theorem packagesOf_eq_nil {root : Node} :
    packagesOf root = [] ↔
      ∀ position node, Reaches .read root position node → asked? position node = none := by
  rw [List.eq_nil_iff_forall_not_mem]
  constructor
  · intro nothing position node reaches
    apply Option.eq_none_iff_forall_ne_some.mpr
    intro package asked
    exact nothing package ((mem_packages_visit silent).mpr ⟨position, node, reaches, asked⟩)
  · intro unasked package mem
    obtain ⟨position, node, reaches, asked⟩ := (mem_packages_visit silent).mp mem
    rw [unasked position node reaches] at asked
    cases asked

/-- The walk over a tree in a position comes to a node and replaces it under a name. -/
def Replaces (position : Position) (root node : Node) (name : String) : Prop :=
  ∃ other literal, Reaches position root other node ∧
    rules.replacement? other node = some (name, literal)

/-- A name is reported on a walk exactly when some node is replaced under it. -/
theorem mem_replacedNames_visit {name : String} {position : Position} {root : Node} :
    name ∈ (rules.visit position root).replacedNames ↔
      ∃ node, rules.Replaces position root node name := by
  rw [Traced.mem_replacedNames, mem_events_visit]
  constructor
  · rintro ⟨other, node, reaches, happens⟩
    obtain ⟨literal, replaced⟩ := rules.replaced_mem_ownEvents.mp happens
    exact ⟨node, other, literal, reaches, replaced⟩
  · rintro ⟨node, other, literal, reaches, replaced⟩
    exact ⟨other, node, reaches, rules.replaced_mem_ownEvents.mpr ⟨literal, replaced⟩⟩

/-! ### What the rules have a say in -/

section Agreement

variable {rules other : Rules} (bareCall : other.bareCall? = rules.bareCall?) {position : Position}
  {node : Node}

include bareCall

/-- Other rules replace a node as these do, when its parts are made up anew in the same way, the name
under which it is read has the same literal and the package that it asks for has the same version. -/
theorem replacement?_eq_of_agree (made : other.rebuilt position node = rules.rebuilt position node)
    (agree : position = .read → ∀ name, rules.readName? node = some name →
      other.literal? name = rules.literal? name)
    (version : ∀ package, asked? position node = some package →
      other.version package = rules.version package) :
    other.replacement? position node = rules.replacement? position node := by
  by_cases isCall : ∃ callee arguments, node.kind = .call callee arguments
  · obtain ⟨span, kind⟩ := node
    obtain ⟨callee, arguments, rfl⟩ := isCall
    by_cases kept : position = .kept
    · simp only [replacement?, if_pos kept]
    simp only [replacement?, callLiteral?, bareCall, if_neg kept]
    cases uses : versionCall? callee arguments with
    | none => rfl
    | some use =>
        cases use with
        | own => rfl
        | dependency package =>
            have asked : asked? position ⟨span, .call callee arguments⟩ = some package := by
              simp only [asked?, uses, if_neg kept]
            simp only [version package asked]
  · have noCall : ∀ callee arguments, node.kind ≠ .call callee arguments := by
      intro callee arguments eq
      exact isCall ⟨callee, arguments, eq⟩
    rw [replacement?_of_no_call other noCall, replacement?_of_no_call rules noCall]
    by_cases read : position = .read
    · subst read
      have sameName : other.readName? node = rules.readName? node := by
        unfold readName?
        rw [made]
      rw [if_pos rfl, if_pos rfl, sameName]
      cases named : rules.readName? node with
      | none => rfl
      | some name => rw [Option.bind_some, Option.bind_some, agree rfl name named]
    · rw [if_neg read, if_neg read]

/-- Rules have a say in a walk only by the names that are read on it and the packages that are asked for:
other rules that have the same literals and versions for these go the same way. -/
theorem visit_eq_of_agree
    (version : ∀ package ∈ (rules.visit position node).packages,
      other.version package = rules.version package)
    (agree : ∀ inner, Reaches position node .read inner → ∀ name,
      rules.readName? inner = some name → other.literal? name = rules.literal? name) :
    other.visit position node = rules.visit position node := by
  induction node using Node.childInduction generalizing position with
  | step node ih =>
      rw [packages_visit] at version
      have inside : ∀ child ∈ (node.places position).children,
          other.visit child.1 child.2 = rules.visit child.1 child.2 := by
        intro child mem
        apply ih child.2 (Node.mem_children_of_mem_places mem)
        · intro package asked
          apply version
          exact List.mem_append_left _ (List.mem_flatMap.mpr ⟨child, mem, asked⟩)
        · intro inner reaches
          exact agree inner (.inside mem reaches)
      have made : other.rebuilt position node = rules.rebuilt position node := by
        rw [rebuilt, rebuilt,
          Kind.map_congr fun child mem => congrArg Traced.value (inside child mem)]
      have own : other.replacement? position node = rules.replacement? position node := by
        apply replacement?_eq_of_agree bareCall made
        · rintro rfl
          exact agree node .here
        · intro package asked
          apply version
          exact List.mem_append_right _ (by rw [asked, Option.toList_some]; exact List.mem_cons_self)
      apply Traced.ext
      · rw [value_visit, value_visit, own, made]
      · rw [events_visit, events_visit, ownEvents, ownEvents, own,
          List.flatMap_congr fun child mem => congrArg Traced.events (inside child mem)]

end Agreement

/-- Of the versions of packages, a walk depends on those that the tree asks for. -/
theorem visit_eq_of_versions {rules other : Rules} {root : Node}
    (literals : other.literal? = rules.literal?) (bareCall : other.bareCall? = rules.bareCall?)
    (versions : ∀ package ∈ packagesOf root, other.version package = rules.version package) :
    other.visit .read root = rules.visit .read root := by
  refine visit_eq_of_agree bareCall (fun package asked => versions package ?_) fun _ _ name _ => ?_
  · rwa [packages_visit_eq rules silent] at asked
  · rw [literals]

/-- A name that is read and has a literal is replaced. -/
theorem mem_replacedNames_of_readName? {position : Position} {root node : Node} {name : String}
    {literal : Node} (reaches : Reaches position root .read node)
    (named : rules.readName? node = some name) (rule : rules.literal? name = some literal) :
    name ∈ (rules.visit position root).replacedNames := by
  refine (mem_replacedNames_visit rules).mpr ⟨node, .read, literal, reaches, ?_⟩
  have noCall : ∀ callee arguments, node.kind ≠ .call callee arguments := by
    intro callee arguments eq
    rw [readName?, eq] at named
    cases named
  rw [replacement?_of_no_call rules noCall, if_pos rfl, named, Option.bind_some, rule]
  rfl

end Rules

end Imprint
