/-
Module: Imprint.Proofs.Patterns
Purpose: What binds and what is assigned to survives the walk. A tree whose binding positions and
  assignment targets hold patterns keeps that property, and outside the literals that are put in, every
  pattern has the leaves it had, and declared names and written keys are untouched.
Main exports: Node.leaves?, WellPlaced, KeepsBindings, Rules.wellPlaced_visit,
  Rules.keepsBindings_visit, bindings_survive
-/
import Imprint.Proofs.Instances
import Imprint.Proofs.WalkSteps

namespace Imprint

/-! ### Patterns and where they stand -/

namespace Kind

variable {α β : Type}

/-- The children that must be patterns: what a declarator declares, parameters, and what is assigned
to or updated. -/
def targets : Kind α → List α
  | .declarator target _ => [target]
  | .functionDeclaration _ params _ => params
  | .functionExpression _ params _ => params
  | .arrowFunction params _ => params
  | .method _ _ _ _ params _ => params
  | .update _ _ argument => [argument]
  | .assignment _ left _ => [left]
  | .assignmentPattern left _ => [left]
  | _ => []

/-- The children that are names on their own: declared names of functions and classes, and keys that
are not computed. -/
def fixedNames : Kind α → List α
  | .functionDeclaration name _ _ => [name]
  | .functionExpression name _ _ => name.toList
  | .classDeclaration name _ _ => name.toList
  | .method _ _ key computed _ _ => if computed then [] else [key]
  | .property key _ computed => if computed then [] else [key]
  | _ => []

/-- Changing the children of a node one by one changes its targets one by one. -/
theorem targets_map (f : α → β) (kind : Kind α) : (kind.map f).targets = kind.targets.map f := by
  cases kind <;> rfl

/-- The same for its fixed names. -/
theorem fixedNames_map (f : α → β) (kind : Kind α) :
    (kind.map f).fixedNames = kind.fixedNames.map f := by
  cases kind with
  | functionExpression name params body => exact optionMap_toList f name
  | classDeclaration name superClass body => exact optionMap_toList f name
  | method home form key computed params body => cases computed <;> rfl
  | property key value computed => cases computed <;> rfl
  | _ => rfl

end Kind

namespace Node

/-- The leaves of two patterns, if both are patterns. -/
def joinLeaves? : Option (List Node) → Option (List Node) → Option (List Node)
  | some leaves, some others => some (leaves ++ others)
  | _, _ => none

mutual

/-- The leaves of a pattern in order: the identifiers that it binds or assigns to, and the members
that it assigns to. What is no pattern has none. -/
def leaves? : Node → Option (List Node)
  | ⟨span, .identifier name⟩ => some [⟨span, .identifier name⟩]
  | ⟨span, .member owner part computed⟩ => some [⟨span, .member owner part computed⟩]
  | ⟨_, .assignmentPattern left _⟩ => leaves? left
  | ⟨_, .spread argument⟩ => leaves? argument
  | ⟨_, .array elements⟩ => slotLeaves? elements
  | ⟨_, .object properties⟩ => entriesLeaves? properties
  | _ => none

/-- The leaves of an entry of an object pattern: of the value of a property, or of what is spread. -/
def entryLeaves? : Node → Option (List Node)
  | ⟨_, .property _ value _⟩ => leaves? value
  | ⟨_, .spread argument⟩ => leaves? argument
  | _ => none

/-- The leaves of all places of an array pattern; a hole has none. -/
def slotLeaves? : List (Option Node) → Option (List Node)
  | [] => some []
  | none :: rest => slotLeaves? rest
  | some node :: rest => joinLeaves? (leaves? node) (slotLeaves? rest)

/-- The leaves of all entries of an object pattern. -/
def entriesLeaves? : List Node → Option (List Node)
  | [] => some []
  | entry :: rest => joinLeaves? (entryLeaves? entry) (entriesLeaves? rest)

end

/-- The identifiers that a pattern binds, in order. -/
def boundNames (pattern : Node) : List Node :=
  (pattern.leaves?.getD []).filter fun leaf => leaf.identifier?.isSome

/-- The same leaf, with its name and span; a member may differ inside. -/
inductive SameLeaf : Node → Node → Prop where
  | same {leaf : Node} : SameLeaf leaf leaf
  | member {span : Span} {owner part otherOwner otherPart : Node} {computed : Bool} :
      SameLeaf ⟨span, .member owner part computed⟩ ⟨span, .member otherOwner otherPart computed⟩

/-- Whatever leaves there were, there are the same ones still. -/
def LeavesKept (before after : Option (List Node)) : Prop :=
  ∀ leaves, before = some leaves →
    ∃ others, after = some others ∧ List.Forall₂ SameLeaf leaves others

/-- Leaves that are the same one by one bind the same names. -/
theorem boundNames_eq_of_sameLeaf {leaves others : List Node}
    (pairs : List.Forall₂ SameLeaf leaves others) :
    (others.filter fun leaf => leaf.identifier?.isSome) =
      leaves.filter fun leaf => leaf.identifier?.isSome := by
  induction pairs with
  | nil => rfl
  | cons pair rest ih =>
      cases pair with
      | same => rw [List.filter_cons, List.filter_cons, ih]
      | member => exact ih

theorem leavesKept_refl (before : Option (List Node)) : LeavesKept before before :=
  fun leaves eq => ⟨leaves, eq, List.forall₂_same.mpr fun _ _ => .same⟩

theorem leavesKept_none (after : Option (List Node)) : LeavesKept none after := by
  intro leaves eq
  cases eq

/-- Leaves that are kept in both parts are kept in the whole. -/
theorem leavesKept_join {first second firstAfter secondAfter : Option (List Node)}
    (front : LeavesKept first firstAfter) (back : LeavesKept second secondAfter) :
    LeavesKept (joinLeaves? first second) (joinLeaves? firstAfter secondAfter) := by
  intro leaves eq
  unfold joinLeaves? at eq
  split at eq
  · obtain ⟨_, rfl, firstPairs⟩ := front _ rfl
    obtain ⟨_, rfl, secondPairs⟩ := back _ rfl
    obtain rfl := Option.some.inj eq
    exact ⟨_, rfl, List.rel_append firstPairs secondPairs⟩
  · cases eq

/-- Leaves that are kept in every element of an array are kept in the array. -/
theorem leavesKept_slots {f : Node → Node} {slots : List (Option Node)}
    (each : ∀ node, some node ∈ slots → LeavesKept node.leaves? (f node).leaves?) :
    LeavesKept (slotLeaves? slots) (slotLeaves? (slots.map (Option.map f))) := by
  induction slots with
  | nil => exact leavesKept_refl (some [])
  | cons slot rest ih =>
      have others := ih fun node mem => each node (List.mem_cons_of_mem slot mem)
      cases slot with
      | none => exact others
      | some node => exact leavesKept_join (each node List.mem_cons_self) others

/-- Leaves that are kept in every property of an object are kept in the object. -/
theorem leavesKept_entries {f : Node → Node} {entries : List Node}
    (each : ∀ entry ∈ entries, LeavesKept entry.entryLeaves? (f entry).entryLeaves?) :
    LeavesKept (entriesLeaves? entries) (entriesLeaves? (entries.map f)) := by
  induction entries with
  | nil => exact leavesKept_refl (some [])
  | cons entry rest ih =>
      have others := ih fun node mem => each node (List.mem_cons_of_mem entry mem)
      exact leavesKept_join (each entry List.mem_cons_self) others

end Node

namespace Rules

variable (rules : Rules)

open Node in
/-- The walk over a pattern keeps its leaves, and so does the walk over an entry of one. -/
theorem leavesKept_visit (node : Node) :
    LeavesKept node.leaves? (rules.visit .pattern node).value.leaves? ∧
      LeavesKept node.entryLeaves? (rules.visit .entry node).value.entryLeaves? := by
  induction node using Node.childInduction with
  | step node ih =>
      obtain ⟨span, kind⟩ := node
      rw [value_visit, value_visit]
      cases kind with
      | identifier name =>
          refine ⟨?_, leavesKept_none _⟩
          intro leaves eq
          obtain rfl := Option.some.inj eq
          exact ⟨_, rfl, .cons .same .nil⟩
      | member owner part computed =>
          refine ⟨?_, leavesKept_none _⟩
          intro leaves eq
          obtain rfl := Option.some.inj eq
          exact ⟨_, rfl, .cons .member .nil⟩
      | assignmentPattern left right =>
          obtain ⟨leftKept, -⟩ := ih left (by simp [Kind.children])
          exact ⟨leftKept, leavesKept_none _⟩
      | spread argument =>
          obtain ⟨argumentKept, -⟩ := ih argument (by simp [Kind.children])
          exact ⟨argumentKept, argumentKept⟩
      | property key value computed =>
          obtain ⟨valueKept, -⟩ := ih value (by simp [Kind.children])
          exact ⟨leavesKept_none _, valueKept⟩
      | array elements =>
          refine ⟨?_, leavesKept_none _⟩
          have kept : LeavesKept (slotLeaves? elements) (slotLeaves? (elements.map
              (Option.map fun element => (rules.visit .pattern element).value))) :=
            leavesKept_slots fun element mem => (ih element (by simpa [Kind.children] using mem)).1
          simpa [replacement?, rebuilt, places, Kind.placed, Kind.map, leaves?,
            Function.comp_def, Position.part] using kept
      | object properties =>
          refine ⟨?_, leavesKept_none _⟩
          have kept : LeavesKept (entriesLeaves? properties) (entriesLeaves? (properties.map
              fun entry => (rules.visit .entry entry).value)) :=
            leavesKept_entries fun entry mem => (ih entry (by simpa [Kind.children] using mem)).2
          simpa [replacement?, rebuilt, places, Kind.placed, Kind.map, leaves?,
            Function.comp_def, Position.propertyOf] using kept
      | _ => exact ⟨leavesKept_none _, leavesKept_none _⟩

/-- The walk replaces no node that binds names. -/
theorem replacement?_pattern {node : Node} (pattern : node.leaves?.isSome) :
    rules.replacement? .pattern node = none := by
  obtain ⟨span, kind⟩ := node
  cases kind <;> first | rfl | cases pattern

end Rules

/-! ### Trees whose patterns are in place -/

/-- Wherever a pattern must stand in a tree, one does. -/
inductive WellPlaced : Node → Prop where
  | intro {node : Node} (targets : ∀ target ∈ node.kind.targets, target.leaves?.isSome)
      (children : ∀ child ∈ node.kind.children, WellPlaced child) : WellPlaced node

/-- Where a tree stands in the source text has nothing to do with whether it is well placed. -/
theorem WellPlaced.withSpan {node : Node} (placed : WellPlaced node) (span : Span) :
    WellPlaced (node.withSpan span) := by
  cases placed with
  | intro targets children => exact .intro targets children

theorem wellPlaced_leaf (content : Leaf) : WellPlaced (.generated (.leaf content)) :=
  .intro (fun _ mem => by cases mem) (fun _ mem => by cases mem)

/-- A target before and after the walk: it is a pattern that binds the same identifiers, leaf by leaf
it is the same pattern, and a member stays a member. -/
structure KeepsTarget (target other : Node) : Prop where
  isPattern : target.leaves?.isSome
  leaves : Node.LeavesKept target.leaves? other.leaves?
  boundNames : other.boundNames = target.boundNames
  isMember : other.isMember = target.isMember

/-- A tree before and after the walk, as far as binding goes: a literal was put in, or the node is the
same kind of syntax, its targets are the same patterns, and its names and written keys are the same. -/
inductive KeepsBindings (rules : Rules) : Node → Node → Prop where
  | substituted {node : Node} {position : Position} {name : String} {literal : Node}
      (rule : rules.replacement? position node = some (name, literal)) :
      KeepsBindings rules node (literal.withSpan node.span)
  | stays {node other : Node} (span : other.span = node.span)
      (shape : other.kind.shape = node.kind.shape)
      (targets : List.Forall₂ KeepsTarget node.kind.targets other.kind.targets)
      (fixedNames : other.kind.fixedNames = node.kind.fixedNames)
      (children : List.Forall₂ (KeepsBindings rules) node.kind.children other.kind.children) :
      KeepsBindings rules node other

namespace Rules

variable (rules : Rules)

/-- The walk comes to what is bound or assigned to in the position of a pattern. -/
theorem position_of_mem_targets {position : Position} (ne : position ≠ .kept) {node : Node}
    {child : Position × Node} (mem : child ∈ (node.places position).targets) :
    child.1 = .pattern := by
  obtain ⟨span, kind⟩ := node
  have places : Node.places position ⟨span, kind⟩ = kind.placed position := if_neg ne
  rw [places] at mem
  cases kind <;> simp [Kind.placed, Kind.targets, Kind.map] at mem <;> grind

/-- The walk leaves names that are fixed alone. -/
theorem position_of_mem_fixedNames {position : Position} {node : Node} {child : Position × Node}
    (mem : child ∈ (node.places position).fixedNames) : child.1 = .kept := by
  obtain ⟨span, kind⟩ := node
  unfold Node.places at mem
  split at mem
  · rw [Kind.fixedNames_map] at mem
    obtain ⟨name, -, rfl⟩ := List.mem_map.mp mem
    rfl
  · cases kind <;> simp [Kind.placed, Kind.fixedNames, Kind.map, Position.key] at mem <;> grind

theorem keepsTarget_kept {target : Node} (isPattern : target.leaves?.isSome) :
    KeepsTarget target target :=
  ⟨isPattern, Node.leavesKept_refl target.leaves?, rfl, rfl⟩

/-- What a pattern becomes binds what the pattern binds. -/
theorem keepsTarget_pattern {target : Node} (isPattern : target.leaves?.isSome) :
    KeepsTarget target (rules.visit .pattern target).value := by
  have kept := (rules.leavesKept_visit target).1
  refine ⟨isPattern, kept, ?_, ?_⟩
  · obtain ⟨leaves, found⟩ := Option.isSome_iff_exists.mp isPattern
    obtain ⟨others, otherFound, pairs⟩ := kept leaves found
    rw [Node.boundNames, Node.boundNames, found, otherFound]
    exact Node.boundNames_eq_of_sameLeaf pairs
  · rw [value_visit, rules.replacement?_pattern isPattern]
    exact rules.isMember_rebuilt .pattern target

/-- The targets of a node, with the positions they have in it, are kept. -/
theorem keepsTarget_of_mem_targets {position : Position} {node : Node}
    (patterns : ∀ target ∈ node.kind.targets, target.leaves?.isSome) :
    ∀ child ∈ (node.places position).targets,
      KeepsTarget child.2 (rules.visit child.1 child.2).value := by
  intro child mem
  have target : child.2 ∈ node.kind.targets := by
    rw [← node.map_snd_places position, Kind.targets_map]
    exact List.mem_map_of_mem mem
  by_cases kept : position = .kept
  · subst kept
    have stays : child.1 = .kept := by
      rw [Node.places, if_pos rfl, Kind.targets_map] at mem
      obtain ⟨_, -, rfl⟩ := List.mem_map.mp mem
      rfl
    rw [stays, visit_kept]
    exact keepsTarget_kept (patterns child.2 target)
  · rw [position_of_mem_targets kept mem]
    exact rules.keepsTarget_pattern (patterns child.2 target)

/-- The literals that the rules put in have their patterns in place. -/
def LiteralsPlaced : Prop :=
  ∀ position node name literal, rules.replacement? position node = some (name, literal) →
    WellPlaced literal

variable {rules}

/-- The walk leaves patterns where they must stand. -/
theorem wellPlaced_visit (literals : rules.LiteralsPlaced) {node : Node} (placed : WellPlaced node)
    (position : Position) : WellPlaced (rules.visit position node).value := by
  induction node using Node.childInduction generalizing position with
  | step node ih =>
      obtain ⟨patterns, children⟩ := placed
      rw [value_visit]
      cases replaced : rules.replacement? position node with
      | some found => exact (literals position _ _ _ replaced).withSpan node.span
      | none =>
          constructor
          · intro target mem
            rw [rebuilt, Kind.targets_map] at mem
            obtain ⟨child, inside, rfl⟩ := List.mem_map.mp mem
            have kept := rules.keepsTarget_of_mem_targets patterns child inside
            obtain ⟨leaves, found⟩ := Option.isSome_iff_exists.mp kept.isPattern
            obtain ⟨others, otherFound, -⟩ := kept.leaves leaves found
            exact Option.isSome_of_eq_some otherFound
          · intro other mem
            rw [rebuilt, Kind.children_map] at mem
            obtain ⟨child, inside, rfl⟩ := List.mem_map.mp mem
            have below := Node.mem_children_of_mem_places inside
            exact ih child.2 below (children child.2 below) child.1

/-- A node whose children were walked over has the fixed names that it had. -/
theorem fixedNames_rebuilt (position : Position) (node : Node) :
    (rules.rebuilt position node).kind.fixedNames = node.kind.fixedNames := by
  have pairs := rules.forall₂_select (fun _ => Kind.fixedNames) (fun _ _ => Kind.fixedNames_map)
    position node (fun child mem => show child.2 = _ by
      rw [position_of_mem_fixedNames mem, visit_kept]
      rfl)
  rw [List.forall₂_eq_eq_eq] at pairs
  exact pairs.symm

/-- The walk keeps what is bound, outside the literals that it puts in. -/
theorem keepsBindings_visit {node : Node} (placed : WellPlaced node) (position : Position) :
    KeepsBindings rules node (rules.visit position node).value := by
  induction node using Node.childInduction generalizing position with
  | step node ih =>
      obtain ⟨patterns, children⟩ := placed
      rw [value_visit]
      cases replaced : rules.replacement? position node with
      | some found => exact .substituted replaced
      | none =>
          have targets : List.Forall₂ KeepsTarget node.kind.targets
              (rules.rebuilt position node).kind.targets :=
            rules.forall₂_select (fun _ => Kind.targets) (fun _ _ => Kind.targets_map) position node
              (rules.keepsTarget_of_mem_targets patterns)
          refine .stays rfl (rules.shape_rebuilt position node) targets
            (fixedNames_rebuilt position node) ?_
          refine rules.forall₂_rebuilt fun child mem => ?_
          have below := Node.mem_children_of_mem_places mem
          exact ih child.2 below (children child.2 below) child.1

/-- The literal of a built-in is a leaf. -/
theorem literal?_eq_leaf {constants : Constants} {clock : Int} {builtIn : BuiltIn} {literal : Node}
    (eq : constants.literal? clock builtIn = some literal) :
    ∃ content, literal = .generated (.leaf content) := by
  unfold Constants.literal? at eq
  obtain ⟨-, eq⟩ := Option.ite_none_left_eq_some.mp eq
  cases builtIn with
  | now => exact ⟨_, (Option.some.inj eq).symm⟩
  | timestamp => exact ⟨_, (Option.some.inj eq).symm⟩
  | _ =>
      obtain ⟨_, -, rfl⟩ := Option.map_eq_some_iff.mp eq
      exact ⟨_, rfl⟩

/-- What holds of every leaf and of the literals of all defines holds of everything that is put in. -/
theorem literal_ofSettings {P : Node → Prop} {settings : Settings} {constants : Constants}
    {clock : Int} {versions : List (String × Option String)}
    (leaf : ∀ content, P (.generated (.leaf content)))
    (defines : ∀ name literal, (settings.define? name).bind Value.literal? = some literal →
      P literal) :
    ∀ position node name literal,
      (ofSettings settings constants clock versions).replacement? position node =
        some (name, literal) → P literal := by
  have ofBuiltIn : ∀ builtIn literal, builtIn? settings constants clock builtIn = some literal →
      P literal := by
    intro builtIn literal eq
    obtain ⟨-, eq⟩ := Option.ite_none_right_eq_some.mp eq
    obtain ⟨content, rfl⟩ := literal?_eq_leaf eq
    exact leaf content
  have ofLookup : ∀ name literal, lookup settings constants clock name = some literal →
      P literal := by
    intro name literal eq
    unfold lookup at eq
    split at eq
    · rename_i found
      exact defines name literal (found.trans eq)
    · obtain ⟨builtIn, -, eq⟩ := Option.bind_eq_some_iff.mp eq
      exact ofBuiltIn builtIn literal eq
  intro position node name literal eq
  rcases replacement?_cases _ eq with
    ⟨_, -, -, rule⟩ | ⟨_, _, _, _, _, -, -, -, -, rule⟩ | ⟨_, _, -, -, -, -, rule⟩ |
      ⟨_, _, _, _, -, -, -, -, -, rfl⟩
  · exact ofLookup _ literal rule
  · exact ofLookup _ literal rule
  · exact ofBuiltIn _ literal rule
  · exact leaf _

/-- Strings and numbers hold no patterns, so it is the literals of the defines that count. -/
theorem literalsPlaced_ofSettings {settings : Settings} {constants : Constants} {clock : Int}
    {versions : List (String × Option String)}
    (defines : ∀ name literal, (settings.define? name).bind Value.literal? = some literal →
      WellPlaced literal) :
    (ofSettings settings constants clock versions).LiteralsPlaced :=
  literal_ofSettings wellPlaced_leaf defines

end Rules

/-- What binds and what is assigned to survives the pass over a tree whose patterns are in place: they
are in place again, and outside the literals that were put in, every pattern binds the same
identifiers, members stay members, and declared names and written keys are the same. -/
theorem bindings_survive {host : Host} {settings : Settings} {memo after : Memo}
    {constants : Constants} {file : Path} {root : Node} {imprinted : Imprinted}
    (succeeded : Imprinted.ofTree host settings memo constants file root =
      (.ok imprinted, after))
    (placed : WellPlaced root)
    (defines : ∀ name literal, (settings.define? name).bind Value.literal? = some literal →
      WellPlaced literal) :
    WellPlaced imprinted.root ∧
      ∃ versions,
        Manifest.versionsOf host settings.manifestFile file memo (Rules.packagesOf root) =
          (.ok versions, after) ∧
        KeepsBindings (Rules.ofSettings settings constants host.clock versions) root
          imprinted.root := by
  obtain ⟨versions, found, rfl⟩ := Imprinted.ofTree_eq_ok succeeded
  constructor
  · exact Rules.wellPlaced_visit (Rules.literalsPlaced_ofSettings defines) placed .read
  · exact ⟨versions, found, Rules.keepsBindings_visit placed .read⟩

namespace Sample

/-- The pattern of the assignment below: a default, a computed key and a member as targets. -/
def entries : List Node :=
  [⟨⟨2, 14⟩, .property ⟨⟨2, 3⟩, .identifier "OTHER"⟩
      ⟨⟨5, 14⟩, .assignmentPattern ⟨⟨5, 6⟩, .identifier "SELF"⟩ ⟨⟨9, 14⟩, .identifier "OTHER"⟩⟩
      false⟩,
    ⟨⟨16, 32⟩, .property ⟨⟨17, 22⟩, .identifier "OTHER"⟩
      ⟨⟨25, 32⟩, .member ⟨⟨25, 26⟩, .identifier "m"⟩ ⟨⟨27, 32⟩, .identifier "OTHER"⟩ false⟩ true⟩]

/-- The source tree of `({OTHER: SELF = OTHER, [OTHER]: m.OTHER} = OTHER)`. -/
def destructuring : Node :=
  ⟨⟨0, 42⟩, .assignment "=" ⟨⟨1, 33⟩, .object entries⟩ ⟨⟨36, 41⟩, .identifier "OTHER"⟩⟩

theorem wellPlaced_identifier (span : Span) (name : String) :
    WellPlaced ⟨span, .identifier name⟩ :=
  .intro (fun _ mem => by cases mem) (fun _ mem => by cases mem)

theorem wellPlaced_destructuring : WellPlaced destructuring := by
  have default : WellPlaced ⟨⟨5, 14⟩, .assignmentPattern ⟨⟨5, 6⟩, .identifier "SELF"⟩
      ⟨⟨9, 14⟩, .identifier "OTHER"⟩⟩ := by
    refine .intro ?_ ?_ <;> simp [Kind.targets, Kind.children, Node.leaves?, wellPlaced_identifier]
  have target : WellPlaced
      ⟨⟨25, 32⟩, .member ⟨⟨25, 26⟩, .identifier "m"⟩ ⟨⟨27, 32⟩, .identifier "OTHER"⟩ false⟩ := by
    refine .intro ?_ ?_ <;> simp [Kind.targets, Kind.children, wellPlaced_identifier]
  have pattern : WellPlaced ⟨⟨1, 33⟩, .object entries⟩ := by
    refine .intro (by simp [Kind.targets]) ?_
    intro entry mem
    simp only [Kind.children, entries, List.mem_cons, List.not_mem_nil, or_false] at mem
    rcases mem with rfl | rfl <;> refine .intro ?_ ?_ <;>
      simp [Kind.targets, Kind.children, wellPlaced_identifier, default, target]
  constructor
  · intro target mem
    rw [List.mem_singleton.mp mem]
    rfl
  · intro child mem
    simp only [destructuring, Kind.children, List.mem_cons, List.not_mem_nil, or_false] at mem
    rcases mem with rfl | rfl
    · exact pattern
    · exact wellPlaced_identifier _ _

theorem wellPlaced_defines (name : String) (literal : Node)
    (eq : (settings.define? name).bind Value.literal? = some literal) : WellPlaced literal := by
  have tree : WellPlaced (.generated (.member (.generated (.identifier "SELF"))
      (.generated (.identifier "OTHER")) false)) := by
    refine .intro ?_ ?_ <;>
      simp [Node.generated, Kind.targets, Kind.children, wellPlaced_identifier]
  obtain ⟨value, found, rendered⟩ := Option.bind_eq_some_iff.mp eq
  obtain ⟨⟨key, _⟩, among, rfl⟩ := Option.map_eq_some_iff.mp found
  have mem := List.mem_of_find?_eq_some among
  simp only [settings, Settings.withDefine, Settings.initial, Json.setMember, String.reduceEq,
    if_false, List.mem_cons, List.not_mem_nil, or_false, Prod.mk.injEq] at mem
  rcases mem with ⟨rfl, rfl⟩ | ⟨rfl, rfl⟩
  · exact Option.some.inj rendered ▸ tree
  · exact Option.some.inj rendered ▸ wellPlaced_leaf (.boolean true)

end Sample

theorem sample_bindings_survive :
    ∃ imprinted after,
      Imprinted.ofTree Sample.host Sample.settings [] (.outside "") ⟨"/app/main.js"⟩
          Sample.destructuring = (.ok imprinted, after) ∧
        imprinted.root.kind.targets.map Node.canonicalText =
          ["\x7bOTHER: SELF = true, [true]: m.OTHER\x7d"] ∧
        WellPlaced imprinted.root := by
  have succeeded : Imprinted.ofTree Sample.host Sample.settings [] (.outside "")
      ⟨"/app/main.js"⟩ Sample.destructuring =
        (.ok (.ofRules (.ofSettings Sample.settings (.outside "") 0 []) Sample.destructuring),
          []) := rfl
  have survive :=
    bindings_survive succeeded Sample.wellPlaced_destructuring Sample.wellPlaced_defines
  refine ⟨_, _, succeeded, ?_, survive.1⟩
  decide

end Imprint
