/-
Module: Imprint.Proofs.SecondRuns
Purpose: One run is enough. When the defines hold data, what a run puts in holds nothing that is read, and
  what a run leaves alone it would leave alone again: every name, chain and call looks the same to a
  second run, apart from two kinds of calls. So on the tree that a run made a second run does nothing.
Main exports: Node.IsData, Value.isData_literal, Node.PlainCalls, Rules.events_visit_visit,
  second_run_changes_nothing
-/
import Imprint.Proofs.ChainSpelling
import Imprint.Proofs.Instances
import Imprint.Proofs.Patterns
import Imprint.Proofs.Trails
import Mathlib.Data.List.Induction

namespace Imprint

/-! ### Literals of data -/

/-- A literal that holds nothing but data: a leaf, or an array or an object with written keys of such
literals. -/
inductive Node.IsData : Node → Prop where
  | leaf {span : Span} {content : Leaf} : IsData ⟨span, .leaf content⟩
  | array {span : Span} {elements : List (Option Node)}
      (items : ∀ item, some item ∈ elements → IsData item) : IsData ⟨span, .array elements⟩
  | property {span : Span} {key value : Node} (held : IsData value) :
      IsData ⟨span, .property key value false⟩
  | object {span : Span} {properties : List Node} (entries : ∀ entry ∈ properties, IsData entry) :
      IsData ⟨span, .object properties⟩

namespace Node.IsData

variable {node : Node}

/-- Data is data with every span. -/
theorem withSpan (data : node.IsData) (span : Span) : (node.withSpan span).IsData := by
  cases data with
  | leaf => exact .leaf
  | array items => exact .array items
  | property held => exact .property held
  | object entries => exact .object entries

theorem identifier? (data : node.IsData) : node.identifier? = none := by
  cases data <;> rfl

theorem isMember (data : node.IsData) : node.isMember = false := by
  cases data <;> rfl

/-- Data is never replaced. -/
theorem replacement?_eq_none (data : node.IsData) (rules : Rules) (position : Position) :
    rules.replacement? position node = none := by
  cases data <;> simp [Rules.replacement?, Rules.readName?]

/-- Data asks for no package. -/
theorem asked?_eq_none (data : node.IsData) (position : Position) :
    Rules.asked? position node = none := by
  apply Rules.asked?_of_no_call
  intro callee arguments eq
  cases data <;> cases eq

/-- What happens on a walk over data would happen on the walk over its children. -/
theorem events_visit_of_children (data : node.IsData) (rules : Rules) {position : Position}
    (children : ∀ child ∈ (node.places position).children,
      (rules.visit child.1 child.2).events = []) :
    (rules.visit position node).events = [] :=
  rules.events_visit_eq_nil.mpr
    ⟨children, data.replacement?_eq_none rules position, data.asked?_eq_none position⟩

/-- Nothing happens on a walk over data, wherever it stands. -/
theorem events_visit (data : node.IsData) (rules : Rules) (position : Position) :
    (rules.visit position node).events = [] := by
  induction data generalizing position with
  | leaf =>
      apply IsData.leaf.events_visit_of_children
      intro child mem
      cases Node.mem_children_of_mem_places mem
  | array items ih =>
      apply (IsData.array items).events_visit_of_children
      intro child mem
      have inside := Node.mem_children_of_mem_places mem
      simp only [Kind.children, List.mem_flatMap, Option.mem_toList] at inside
      obtain ⟨element, among, rfl⟩ := inside
      exact ih child.2 among child.1
  | @property span key value held ih =>
      apply (IsData.property held).events_visit_of_children
      intro child mem
      -- The key is kept as it is, wherever the property stands.
      by_cases kept : position = .kept
      · simp only [Node.places, kept, if_true, Kind.map, Kind.children, List.mem_cons,
          List.not_mem_nil, or_false] at mem
        rcases mem with rfl | rfl
        · rw [Rules.visit_kept]
          rfl
        · exact ih .kept
      · simp only [Node.places, if_neg kept, Kind.placed, Kind.children, List.mem_cons,
          List.not_mem_nil, or_false] at mem
        rcases mem with rfl | rfl
        · show (rules.visit .kept key).events = []
          rw [Rules.visit_kept]
          rfl
        · exact ih position.valueOf
  | object entries ih =>
      apply (IsData.object entries).events_visit_of_children
      intro child mem
      exact ih child.2 (Node.mem_children_of_mem_places mem) child.1

end Node.IsData

namespace Json

variable {α : Type} {key : String} {value : α} {members : List (String × α)}
  {entry : String × α}

/-- A member among those after one was set is that one or an old one. -/
theorem mem_setMember (mem : entry ∈ setMember key value members) :
    entry = (key, value) ∨ entry ∈ members := by
  induction members with
  | nil => exact .inl (List.mem_singleton.mp mem)
  | cons first rest ih =>
      obtain ⟨other, old⟩ := first
      rw [setMember] at mem
      split at mem
      · rcases List.mem_cons.mp mem with new | inside
        · exact .inl new
        · exact .inr (List.mem_cons_of_mem _ inside)
      · rcases List.mem_cons.mp mem with rfl | inside
        · exact .inr List.mem_cons_self
        · rcases ih inside with new | among
          · exact .inl new
          · exact .inr (List.mem_cons_of_mem _ among)

theorem mem_of_member? (found : member? key members = some value) : (key, value) ∈ members := by
  obtain ⟨⟨other, _⟩, first, rfl⟩ := Option.map_eq_some_iff.mp found
  have same : other = key := by simpa using List.find?_some first
  exact same ▸ List.mem_of_find?_eq_some first

/-- Members that are made distinct were members before. -/
theorem mem_lastWins (mem : entry ∈ lastWins members) : entry ∈ members := by
  induction members using List.reverseRecOn with
  | nil => exact mem
  | append_singleton front last ih =>
      rw [lastWins, List.foldl_append] at mem
      rcases mem_setMember mem with new | old
      · rw [new]
        exact List.mem_append_right front List.mem_cons_self
      · exact List.mem_append_left [last] (ih old)

end Json

namespace Value

/-- Values that are data through and through: no trees, functions, dates or values of other types. -/
inductive IsPlain : Value → Prop where
  | null : IsPlain .null
  | bool {value : Bool} : IsPlain (.bool value)
  | number {value : Binary64} : IsPlain (.number value)
  | text {content : String} : IsPlain (.text content)
  | array {items : List Value} (each : ∀ item ∈ items, IsPlain item) : IsPlain (.array items)
  | object {entries : List (String × Value)} (each : ∀ entry ∈ entries, IsPlain entry.2) :
      IsPlain (.object entries)

mutual

theorem isPlain_ofJson : ∀ json : Json, (ofJson json).IsPlain
  | .null => .null
  | .bool _ => .bool
  | .number _ => .number
  | .text _ => .text
  | .array items => .array (isPlain_listOfJson items)
  | .object members => .object fun entry mem =>
      isPlain_entriesOfJson members entry (Json.mem_lastWins mem)

theorem isPlain_listOfJson : ∀ (items : List Json), ∀ value ∈ listOfJson items, value.IsPlain
  | [], _, mem => by cases mem
  | item :: rest, value, mem => by
      rcases List.mem_cons.mp mem with rfl | inside
      · exact isPlain_ofJson item
      · exact isPlain_listOfJson rest value inside

theorem isPlain_entriesOfJson :
    ∀ (members : List (String × Json)), ∀ entry ∈ entriesOfJson members, entry.2.IsPlain
  | [], _, mem => by cases mem
  | (_, item) :: rest, entry, mem => by
      rcases List.mem_cons.mp mem with rfl | inside
      · exact isPlain_ofJson item
      · exact isPlain_entriesOfJson rest entry inside

end

/-- Every element of an array literal is the literal of an item. -/
theorem mem_itemLiterals {items : List Value} {element : Option Node}
    (mem : element ∈ itemLiterals items) :
    ∃ item ∈ items, ∃ literal, literal? item = some literal ∧ element = some literal := by
  induction items with
  | nil => cases mem
  | cons item rest ih =>
      rw [itemLiterals] at mem
      split at mem
      · rename_i literal found
        rcases List.mem_cons.mp mem with rfl | inside
        · exact ⟨item, List.mem_cons_self, literal, found, rfl⟩
        · obtain ⟨other, among, found⟩ := ih inside
          exact ⟨other, List.mem_cons_of_mem item among, found⟩
      · obtain ⟨other, among, found⟩ := ih mem
        exact ⟨other, List.mem_cons_of_mem item among, found⟩

/-- Every property of an object literal is the literal of an entry. -/
theorem mem_entryLiterals {entries : List (String × Value)} {property : Node}
    (mem : property ∈ entryLiterals entries) :
    ∃ entry ∈ entries, ∃ literal, literal? entry.2 = some literal ∧
      property = Node.property (keyLiteral entry.1) literal := by
  induction entries with
  | nil => cases mem
  | cons entry rest ih =>
      obtain ⟨key, value⟩ := entry
      rw [entryLiterals] at mem
      split at mem
      · rename_i literal found
        rcases List.mem_cons.mp mem with rfl | inside
        · exact ⟨(key, value), List.mem_cons_self, literal, found, rfl⟩
        · obtain ⟨other, among, found⟩ := ih inside
          exact ⟨other, List.mem_cons_of_mem _ among, found⟩
      · obtain ⟨other, among, found⟩ := ih mem
        exact ⟨other, List.mem_cons_of_mem _ among, found⟩

/-- The literal of a plain value holds nothing but data. -/
theorem isData_literal {value : Value} (plain : value.IsPlain) {literal : Node}
    (eq : value.literal? = some literal) : literal.IsData := by
  induction plain generalizing literal with
  | array each ih =>
      obtain rfl := Option.some.inj eq
      refine .array fun item mem => ?_
      obtain ⟨value, among, other, found, same⟩ := mem_itemLiterals mem
      obtain rfl := Option.some.inj same
      exact ih value among found
  | object each ih =>
      obtain rfl := Option.some.inj eq
      refine .object fun property mem => ?_
      obtain ⟨entry, among, other, found, rfl⟩ := mem_entryLiterals mem
      exact .property (ih entry among found)
  | _ =>
      obtain rfl := Option.some.inj eq
      exact .leaf

end Value

/-! ### Chains -/

namespace Node

/-- What is no member is no chain. -/
theorem chainTail?_of_not_member {node : Node} (other : node.isMember = false) :
    node.chainTail? = none := by
  obtain ⟨span, kind⟩ := node
  cases kind <;> first | rfl | cases other

/-- A chain goes on with every property that is no identifier. -/
theorem chainTail?_member {part : Node} (other : part.identifier? = none) (span : Span)
    (owner : Node) (computed : Bool) :
    chainTail? ⟨span, .member owner part computed⟩ = part.chainTail? := by
  obtain ⟨inner, kind⟩ := part
  cases kind <;> first | rfl | cases other

end Node

/-! ### What a second run sees -/

/-- The calls in a tree that a second run could see with other eyes are left out. -/
structure Node.PlainCalls (root : Node) : Prop where
  /-- The package version is not called with a single argument unless that is a string literal. -/
  versions : ∀ span callee argument, ⟨span, .call callee [argument]⟩ ∈ root.nodes →
    callee.identifier? = some Rules.versionName → argument.text?.isSome
  /-- No identifier is passed to a callee that is none and has the same text. -/
  spellings : ∀ span callee arguments, ⟨span, .call callee arguments⟩ ∈ root.nodes →
    callee.identifier? = none →
      ∀ argument ∈ arguments, argument.identifier? ≠ some callee.canonicalText

/-- Calls that are plain in a tree are plain in its parts. -/
theorem Node.PlainCalls.child {node child : Node} (plain : node.PlainCalls)
    (mem : child ∈ node.kind.children) : child.PlainCalls where
  versions span callee argument inside :=
    plain.versions span callee argument (mem_nodes_of_mem_children mem inside)
  spellings span callee arguments inside :=
    plain.spellings span callee arguments (mem_nodes_of_mem_children mem inside)

namespace Rules

/-- Everything that the rules put in is data. -/
def DataLiterals (rules : Rules) : Prop :=
  ∀ position node name literal, rules.replacement? position node = some (name, literal) →
    literal.IsData

variable {rules : Rules} {position : Position} {node : Node}

/-- The walk puts data in the place of a node, or it goes through its children. -/
theorem data_or_rebuilt (literals : rules.DataLiterals) (position : Position) (node : Node) :
    (rules.visit position node).value.IsData ∨
      (rules.visit position node).value = rules.rebuilt position node := by
  rw [value_visit]
  cases replaced : rules.replacement? position node with
  | none => exact .inr rfl
  | some found => exact .inl ((literals _ _ _ _ replaced).withSpan node.span)

/-- What is no identifier does not become one. -/
theorem identifier?_visit (literals : rules.DataLiterals) (other : node.identifier? = none) :
    (rules.visit position node).value.identifier? = none := by
  rcases data_or_rebuilt literals position node with data | eq
  · exact data.identifier?
  · rw [eq, identifier?_rebuilt, other]

/-- What is no member does not become one. -/
theorem isMember_visit (literals : rules.DataLiterals) (other : node.isMember = false) :
    (rules.visit position node).value.isMember = false := by
  rcases data_or_rebuilt literals position node with data | eq
  · exact data.isMember
  · rw [eq, isMember_rebuilt, other]

/-- Where a chain is read or goes on, the position of a property depends on the property alone. -/
theorem memberProperty_of_walked (walked : position = .read ∨ position = .chain) (computed : Bool)
    (part : Node) :
    position.memberProperty computed part =
      if part.isMember then .chain
      else if part.identifier?.isSome then .key computed
      else .read := by
  rcases walked with rfl | rfl <;> rfl

/-- A chain ends in the same name when its parts are made up anew. -/
theorem chainTail?_rebuilt (literals : rules.DataLiterals)
    (walked : position = .read ∨ position = .chain) :
    (rules.rebuilt position node).chainTail? = node.chainTail? := by
  have ne : position ≠ .kept := by
    rcases walked with rfl | rfl <;> decide
  fun_induction Node.chainTail? node generalizing position with
  | case1 span owner inner name =>
      have read : position.memberProperty true ⟨inner, .identifier name⟩ = .read :=
        memberProperty_of_walked walked true _
      rw [rebuilt_member rules ne, read]
      rcases data_or_rebuilt literals .read ⟨inner, .identifier name⟩ with data | eq
      · rw [Node.chainTail?_member data.identifier?, Node.chainTail?_of_not_member data.isMember]
      · rw [eq]
        rfl
  | case2 span owner inner name computed bare =>
      have kept : position.memberProperty computed ⟨inner, .identifier name⟩ = .kept := by
        rw [memberProperty_of_walked walked]
        simp [Node.isMember, Node.identifier?, Position.key, bare]
      rw [rebuilt_member rules ne, kept, visit_kept]
      simp [Node.chainTail?, bare]
  | case3 span owner part computed other ih =>
      have unnamed : part.identifier? = none := by
        obtain ⟨inner, kind⟩ := part
        cases kind <;> first | rfl | exact absurd rfl (other _ _)
      rw [rebuilt_member rules ne, Node.chainTail?_member (identifier?_visit literals unnamed),
        memberProperty_of_walked walked]
      cases goesOn : part.isMember with
      | true =>
          rw [if_pos rfl, value_visit_chain rules goesOn]
          exact ih (.inr rfl) (by decide)
      | false =>
          rw [if_neg (by decide), if_neg (by simp [unnamed]), Node.chainTail?_of_not_member goesOn]
          exact Node.chainTail?_of_not_member (isMember_visit literals goesOn)
  | case4 node _ other =>
      apply Node.chainTail?_of_not_member
      rw [isMember_rebuilt]
      obtain ⟨span, kind⟩ := node
      cases kind <;> first | rfl | exact absurd rfl (other _ _ _ _)

/-- The property of a member stands where it stood. -/
theorem memberProperty_visit (literals : rules.DataLiterals)
    (walked : position = .read ∨ position = .chain) (computed : Bool) (part : Node) :
    position.memberProperty computed
        (rules.visit (position.memberProperty computed part) part).value =
      position.memberProperty computed part := by
  cases goesOn : part.isMember with
  | true =>
      have onward : position.memberProperty computed part = .chain := by
        rw [memberProperty_of_walked walked, if_pos goesOn]
      have stays : (rules.rebuilt .chain part).isMember := by rw [isMember_rebuilt, goesOn]
      rw [onward, value_visit_chain rules goesOn, memberProperty_of_walked walked, if_pos stays]
  | false =>
      have away (other : Node) (ends : other.isMember = false) :
          position.memberProperty computed other =
            if other.identifier?.isSome then .key computed else .read := by
        rw [memberProperty_of_walked walked, if_neg (by simp [ends])]
      have stays :
          (rules.visit (position.memberProperty computed part) part).value.isMember = false :=
        isMember_visit literals goesOn
      rw [away _ stays, away part goesOn]
      cases named : part.identifier? with
      | none => simp [identifier?_visit literals named]
      | some name =>
          cases computed with
          | false =>
              simp [Position.key, visit_kept, named]
          | true =>
              simp [Position.key]

/-- The argument of a call stands where it stood, or is left alone. -/
theorem argument_visit {span : Span} {callee argument : Node} {arguments : List Node}
    (plain : Node.PlainCalls ⟨span, .call callee arguments⟩) (walked : position ≠ .kept)
    (mem : argument ∈ arguments) :
    let visited := (rules.visit (.argument callee.canonicalText argument) argument).value
    let text := Position.calleeText (rules.rebuilt position ⟨span, .call callee arguments⟩)
    Position.argument text visited = .argument callee.canonicalText argument ∨
      Position.argument text visited = .kept := by
  by_cases spelled : argument.identifier? = some callee.canonicalText
  · have skipped : Position.argument callee.canonicalText argument = .kept := if_pos spelled
    cases named : callee.identifier? with
    | none =>
        have other := plain.spellings span callee arguments (Node.mem_nodes_self _) named argument mem
        exact absurd spelled other
    | some name =>
        have keptCallee : Position.callee callee = .kept := by simp [Position.callee, named]
        have text : Position.calleeText (rules.rebuilt position ⟨span, .call callee arguments⟩) =
            callee.canonicalText := by
          simp [rebuilt, Node.places, walked, Kind.placed, Kind.map, Position.calleeText,
            keptCallee, visit_kept]
        right
        rw [text, skipped, visit_kept]
        exact skipped
  · have read : Position.argument callee.canonicalText argument = .read := if_neg spelled
    rw [read]
    dsimp only [Position.argument]
    split
    · exact .inr rfl
    · exact .inl rfl

/-- A child that was walked over stands for a second run where it stood for the first, or is left
alone. -/
theorem inside_rebuilt (literals : rules.DataLiterals) (plain : node.PlainCalls)
    (position : Position) {place : Place} {child : Node} (step : (place, child) ∈ node.steps) :
    let visited := (rules.visit (position.inside node place child) child).value
    position.inside (rules.rebuilt position node) place visited =
        position.inside node place child ∨
      position.inside (rules.rebuilt position node) place visited = .kept := by
  by_cases kept : position = .kept
  · exact .inr (by simp [Position.inside, kept])
  simp only [Position.inside, if_neg kept]
  cases place with
  | callee =>
      left
      cases named : child.identifier? with
      | some name =>
          have skipped : Position.callee child = .kept := by simp [Position.callee, named]
          rw [skipped, visit_kept]
          exact skipped
      | none =>
          simp only [Position.callee, named, identifier?_visit literals named]
  | argument =>
      obtain ⟨index, found⟩ := List.mem_iff_getElem?.mp step
      obtain ⟨span, callee, arguments, rfl⟩ := Node.eq_call_of_argument found
      have mem : child ∈ arguments := by
        simpa [Node.steps, Kind.labelled, Kind.children] using step
      exact argument_visit plain kept mem
  | property computed =>
      left
      cases position with
      | read => exact memberProperty_visit literals (.inl rfl) computed child
      | chain => exact memberProperty_visit literals (.inr rfl) computed child
      | pattern => rfl
      | entry => rfl
      | kept => exact absurd rfl kept
  | _ => exact .inl rfl

/-- Other rules have no literal where these have none. -/
structure Allows (rules later : Rules) : Prop where
  names : ∀ name, rules.literal? name = none → later.literal? name = none
  bareCall : rules.bareCall? = none → later.bareCall? = none

/-- When a call stays and is one of the package version afterwards, it has no arguments, and there is no
literal for such a call. -/
theorem versionCall?_rebuilt (literals : rules.DataLiterals) {span : Span} {callee : Node}
    {arguments : List Node} (plain : Node.PlainCalls ⟨span, .call callee arguments⟩)
    (walked : position ≠ .kept)
    (stays : rules.replacement? position ⟨span, .call callee arguments⟩ = none)
    {visit : Node → Node} {use : VersionCall}
    (eq : versionCall? (rules.visit (.callee callee) callee).value (arguments.map visit) =
      some use) :
    use = .own ∧ rules.bareCall? = none := by
  obtain ⟨spelled, shape⟩ := versionCall?_eq_some eq
  have called : callee.identifier? = some versionName := by
    cases named : callee.identifier? with
    | none =>
        rw [identifier?_visit literals named] at spelled
        cases spelled
    | some name =>
        have kept : Position.callee callee = .kept := by simp [Position.callee, named]
        rw [kept, visit_kept] at spelled
        exact named.symm.trans spelled
  simp only [replacement?, if_neg walked, Option.map_eq_none_iff] at stays
  rcases shape with ⟨own, empty⟩ | ⟨_, _, _, single, _⟩
  · obtain rfl := List.map_eq_nil_iff.mp empty
    refine ⟨own, ?_⟩
    simpa [callLiteral?, versionCall?, called] using stays
  · obtain ⟨argument, rfl, -⟩ := List.map_eq_singleton_iff.mp single
    have text := plain.versions span callee argument (Node.mem_nodes_self _) called
    obtain ⟨package, isText⟩ := Option.isSome_iff_exists.mp text
    simp [callLiteral?, versionCall?, called, isText] at stays

/-- A call that stays is left alone by other rules, too. -/
theorem call_stays (literals : rules.DataLiterals) {later : Rules} (allows : rules.Allows later)
    {span : Span} {callee : Node} {arguments : List Node}
    (plain : Node.PlainCalls ⟨span, .call callee arguments⟩)
    (stays : rules.replacement? position ⟨span, .call callee arguments⟩ = none) :
    later.replacement? position (rules.rebuilt position ⟨span, .call callee arguments⟩) = none ∧
      asked? position (rules.rebuilt position ⟨span, .call callee arguments⟩) = none := by
  by_cases kept : position = .kept
  · subst kept
    exact ⟨replacement?_kept later _, asked?_kept _⟩
  have made : rules.rebuilt position ⟨span, .call callee arguments⟩ =
      ⟨span, .call (rules.visit (.callee callee) callee).value (arguments.map fun argument =>
        (rules.visit (.argument callee.canonicalText argument) argument).value)⟩ := by
    simp [rebuilt, Node.places, kept, Kind.placed, Kind.map, Function.comp_def]
  rw [made]
  simp only [replacement?, if_neg kept, asked?, callLiteral?]
  cases uses : versionCall? (rules.visit (.callee callee) callee).value (arguments.map _) with
  | none => exact ⟨rfl, rfl⟩
  | some use =>
      obtain ⟨rfl, bare⟩ := versionCall?_rebuilt literals plain kept stays uses
      simp [allows.bareCall bare]

/-- A name or a chain that stays is read under the same name by other rules. -/
theorem readName?_rebuilt (literals : rules.DataLiterals) {later : Rules}
    (inside : later.rebuilt .read (rules.rebuilt .read node) = rules.rebuilt .read node) :
    later.readName? (rules.rebuilt .read node) = rules.readName? node := by
  obtain ⟨span, kind⟩ := node
  cases kind with
  | member owner part computed =>
      have walked : Position.read ≠ .kept := by decide
      have ends : (rules.rebuilt .read ⟨span, .member owner part computed⟩).chainTail? =
          Node.chainTail? ⟨span, .member owner part computed⟩ :=
        chainTail?_rebuilt literals (.inl rfl)
      simp only [readName?, rules.rebuilt_member walked] at ends inside ⊢
      rw [ends, inside]
  | _ => rfl

/-- What stays is left alone by other rules, too, once nothing changes inside it. -/
theorem stays_rebuilt (literals : rules.DataLiterals) {later : Rules} (allows : rules.Allows later)
    (plain : node.PlainCalls) (stays : rules.replacement? position node = none)
    (inside : later.rebuilt position (rules.rebuilt position node) = rules.rebuilt position node) :
    later.replacement? position (rules.rebuilt position node) = none ∧
      asked? position (rules.rebuilt position node) = none := by
  by_cases isCall : ∃ callee arguments, node.kind = .call callee arguments
  · obtain ⟨span, kind⟩ := node
    obtain ⟨callee, arguments, rfl⟩ := isCall
    exact call_stays literals allows plain stays
  · have noCall : ∀ callee arguments, node.kind ≠ .call callee arguments := by
      intro callee arguments eq
      exact isCall ⟨callee, arguments, eq⟩
    have stillNone : ∀ callee arguments,
        (rules.rebuilt position node).kind ≠ .call callee arguments := by
      intro callee arguments eq
      have shape := rules.shape_rebuilt position node
      rw [eq] at shape
      obtain ⟨span, kind⟩ := node
      cases kind <;> simp [Kind.shape, Kind.map] at shape
      exact noCall _ _ rfl
    refine ⟨?_, asked?_of_no_call stillNone⟩
    rw [replacement?_of_no_call later stillNone]
    rw [replacement?_of_no_call rules noCall] at stays
    split
    · rename_i read
      subst read
      rw [if_pos rfl] at stays
      rw [readName?_rebuilt literals inside]
      cases named : rules.readName? node with
      | none => rfl
      | some name =>
          have unruled : rules.literal? name = none := by simpa [named] using stays
          simp [allows.names name unruled]
    · rfl

/-- Nothing happens on a second walk, when the rules allow for no more than those of the first one. -/
theorem events_visit_visit (literals : rules.DataLiterals) {later : Rules}
    (allows : rules.Allows later) (plain : node.PlainCalls) (position : Position) :
    (later.visit position (rules.visit position node).value).events = [] := by
  induction node using Node.childInduction generalizing position with
  | step node ih =>
      cases replaced : rules.replacement? position node with
      | some found =>
          have data : (rules.visit position node).value.IsData := by
            rw [value_visit, replaced]
            exact (literals _ _ _ _ replaced).withSpan node.span
          exact data.events_visit later position
      | none =>
          rw [value_visit, replaced]
          show (later.visit position (rules.rebuilt position node)).events = []
          have children : ∀ child ∈ ((rules.rebuilt position node).places position).children,
              (later.visit child.1 child.2).events = [] := by
            intro child mem
            rw [Node.places_eq, Kind.children_map, ← Node.steps, steps_rebuilt] at mem
            obtain ⟨_, among, rfl⟩ := List.mem_map.mp mem
            obtain ⟨⟨place, child⟩, step, rfl⟩ := List.mem_map.mp among
            have isChild : child ∈ node.kind.children := by
              rw [← node.map_snd_steps]
              exact List.mem_map_of_mem step
            dsimp only
            rcases inside_rebuilt literals plain position step with stands | kept
            · rw [stands]
              exact ih child isChild (plain.child isChild) _
            · rw [kept, visit_kept]
              rfl
          have inside : later.rebuilt position (rules.rebuilt position node) =
              rules.rebuilt position node := by
            apply later.rebuilt_eq_self
            intro child mem
            apply later.value_visit_of_replacedNames_nil
            exact later.replacedNames_of_events_nil (children child mem)
          exact later.events_visit_eq_nil.mpr
            ⟨children, stays_rebuilt literals allows plain replaced inside⟩

/-! ### Rules of a file -/

section OfSettings

variable {settings : Settings} {constants : Constants} {clock : Int}
  {versions : List (String × Option String)}

/-- What defines of data and built-ins put in is data. -/
theorem dataLiterals_ofSettings
    (fromJson : ∀ entry ∈ settings.defines, ∃ json, entry.2 = Value.ofJson json) :
    (ofSettings settings constants clock versions).DataLiterals := by
  apply literal_ofSettings
  · intro content
    exact .leaf
  · intro name literal eq
    obtain ⟨value, defined, eq⟩ := Option.bind_eq_some_iff.mp eq
    obtain ⟨json, rfl⟩ := fromJson _ (Json.mem_of_member? defined)
    exact Value.isData_literal (Value.isPlain_ofJson json) eq

/-- The time has no say in whether there is a literal for a built-in. -/
theorem builtIn?_at_other_time {builtIn : BuiltIn}
    (missing : builtIn? settings constants clock builtIn = none) (other : Int) :
    builtIn? settings constants other builtIn = none := by
  unfold builtIn? at missing ⊢
  split
  · rename_i enabled
    rw [if_pos enabled] at missing
    cases builtIn with
    | timestamp => simp [Constants.literal?, BuiltIn.requiresManifest] at missing
    | _ => exact missing
  · rfl

/-- Neither the time nor the versions of packages have a say in what has a rule. -/
theorem allows_ofSettings (other : Int) (others : List (String × Option String)) :
    (ofSettings settings constants clock versions).Allows
      (ofSettings settings constants other others) where
  names name missing := by
    change lookup settings constants clock name = none at missing
    show lookup settings constants other name = none
    unfold lookup at missing ⊢
    split at missing
    · cases missing
    · cases spelled : BuiltIn.ofIdentifier? name with
      | none => rfl
      | some builtIn =>
          rw [spelled] at missing
          exact builtIn?_at_other_time missing other
  bareCall missing := builtIn?_at_other_time missing other

end OfSettings

end Rules

/-- A second run on the tree that a run made, at any time and with any files, succeeds, replaces nothing
and leaves the tree as it is. The defines hold data, and in the source tree the package version is not
called with a single argument that is no string literal, and no identifier is passed to a callee of
the same text that is no identifier. -/
theorem second_run_changes_nothing {host : Host} {settings : Settings} {memo after : Memo}
    {constants : Constants} {file : Path} {root : Node} {imprinted : Imprinted}
    (fromJson : ∀ entry ∈ settings.defines, ∃ json, entry.2 = Value.ofJson json)
    (plain : root.PlainCalls)
    (succeeded : Imprinted.ofTree host settings memo constants file root = (.ok imprinted, after))
    (later : Host) (memory : Memo) :
    Imprinted.ofTree later settings memory constants file imprinted.root =
      (.ok ⟨imprinted.root, ⟨0, []⟩⟩, memory) := by
  obtain ⟨versions, -, rfl⟩ := Imprinted.ofTree_eq_ok succeeded
  have nothing : ((Rules.ofSettings settings constants later.clock []).visit .read
      ((Rules.ofSettings settings constants host.clock versions).visit .read root).value).events =
        [] :=
    Rules.events_visit_visit (Rules.dataLiterals_ofSettings fromJson)
      (Rules.allows_ofSettings later.clock []) plain .read
  apply Imprinted.ofTree_of_nothing_replaced
  · rw [Rules.packagesOf, Rules.packages_visit_eq]
    exact Rules.packages_of_events_nil _ nothing
  · exact Rules.replacedNames_of_events_nil _ nothing

namespace Sample

/-- A define whose object is put in as the owner of a member. -/
def environment : Settings :=
  Settings.initial.withDefine "process.env"
    (.ofJson (.object [("MODE", .array [.text "a", .bool true])]))

/-- The source tree of `process.env`. -/
def processEnv : Node :=
  ⟨⟨2, 13⟩, .member ⟨⟨2, 9⟩, .identifier "process"⟩ ⟨⟨10, 13⟩, .identifier "env"⟩ false⟩

/-- The source tree of `f(process.env.MODE, f, __packageversion__("dep"), __packageversion__())`. -/
def calls : Node :=
  ⟨⟨0, 69⟩, .call ⟨⟨0, 1⟩, .identifier "f"⟩
    [⟨⟨2, 18⟩, .member processEnv ⟨⟨14, 18⟩, .identifier "MODE"⟩ false⟩,
      ⟨⟨20, 21⟩, .identifier "f"⟩,
      ⟨⟨23, 48⟩, .call ⟨⟨23, 41⟩, .identifier "__packageversion__"⟩
        [⟨⟨42, 47⟩, .leaf (.text "dep")⟩]⟩,
      ⟨⟨50, 70⟩, .call ⟨⟨50, 68⟩, .identifier "__packageversion__"⟩ []⟩]⟩

theorem plainCalls : calls.PlainCalls where
  versions span callee argument mem named := by
    simp [calls, processEnv, Node.nodes_eq, Kind.children] at mem
    rcases mem with ⟨-, rfl, rfl⟩
    rfl
  spellings span callee arguments mem named := by
    simp [calls, processEnv, Node.nodes_eq, Kind.children] at mem
    rcases mem with ⟨-, rfl, -⟩ | ⟨-, rfl, -⟩ | ⟨-, rfl, -⟩ <;> cases named

end Sample

/-- A run puts in an object and a version; a second one does nothing, although the package version is
still called without arguments. -/
theorem sample_second_run_changes_nothing :
    ∃ imprinted after,
      Imprinted.ofTree Sample.host Sample.environment [] (.outside "") ⟨"/app/main.js"⟩
          Sample.calls = (.ok imprinted, after) ∧
        imprinted.report = ⟨2, [("__packageversion__", 1), ("process.env", 1)]⟩ ∧
        Imprinted.ofTree Sample.host Sample.environment after (.outside "") ⟨"/app/main.js"⟩
          imprinted.root = (.ok ⟨imprinted.root, ⟨0, []⟩⟩, after) := by
  have report : (Imprinted.ofTree Sample.host Sample.environment [] (.outside "") ⟨"/app/main.js"⟩
      Sample.calls).1.toOption.map Imprinted.report =
        some ⟨2, [("__packageversion__", 1), ("process.env", 1)]⟩ := by
    decide +kernel
  have fromJson : ∀ entry ∈ Sample.environment.defines, ∃ json, entry.2 = Value.ofJson json := by
    intro entry mem
    obtain rfl := List.mem_singleton.mp mem
    exact ⟨_, rfl⟩
  obtain ⟨imprinted, after, went, report⟩ := Lookup.eq_ok_of_toOption report
  exact ⟨imprinted, after, went, report,
    second_run_changes_nothing fromJson Sample.plainCalls went Sample.host after⟩

end Imprint
