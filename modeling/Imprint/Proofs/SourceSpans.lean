/-
Module: Imprint.Proofs.SourceSpans
Purpose: Spans have no say in what the walk does. They matter for the text of a template alone, whose
  pieces are ordered by them. In a tree without templates every text, every position and every decision
  of the walk is the same whatever the spans are, and so are the report and all of the imprinted tree
  but its spans.
Main exports: Node.spanless, Node.Untemplated, Node.Twin, Node.Twin.of_children, Rules.visit_spanless,
  spans_have_no_say
-/
import Imprint.Proofs.SecondRuns
import Imprint.Proofs.SessionRuns

namespace Imprint

namespace Node

/-! ### Trees without their spans -/

mutual

/-- The tree without the spans of its nodes. A literal stretch of a template is no node and keeps its
own. -/
def spanless : Node → Node
  | ⟨_, kind⟩ => generated (spanlessKind kind)

/-- A kind of syntax without the spans of the nodes in it. -/
def spanlessKind : Kind Node → Kind Node
  | .program body => .program (spanlessList body)
  | .expressionStatement expression => .expressionStatement (spanless expression)
  | .block body => .block (spanlessList body)
  | .returnStatement argument => .returnStatement (spanlessOption argument)
  | .ifStatement test consequent alternate =>
      .ifStatement (spanless test) (spanless consequent) (spanlessOption alternate)
  | .declaration form declarators => .declaration form (spanlessList declarators)
  | .declarator target init => .declarator (spanless target) (spanlessOption init)
  | .functionDeclaration name params body =>
      .functionDeclaration (spanless name) (spanlessList params) (spanless body)
  | .functionExpression name params body =>
      .functionExpression (spanlessOption name) (spanlessList params) (spanless body)
  | .arrowFunction params body => .arrowFunction (spanlessList params) (spanless body)
  | .classDeclaration name superClass body =>
      .classDeclaration (spanlessOption name) (spanlessOption superClass) (spanlessList body)
  | .method home form key computed params body =>
      .method home form (spanless key) computed (spanlessList params) (spanless body)
  | .identifier name => .identifier name
  | .leaf content => .leaf content
  | .template quasis expressions => .template quasis (spanlessList expressions)
  | .taggedTemplate tag quasi => .taggedTemplate (spanless tag) (spanless quasi)
  | .member object property computed => .member (spanless object) (spanless property) computed
  | .call callee arguments => .call (spanless callee) (spanlessList arguments)
  | .construct callee arguments => .construct (spanless callee) (spanlessList arguments)
  | .unary operator leading argument => .unary operator leading (spanless argument)
  | .update operator leading argument => .update operator leading (spanless argument)
  | .operation family operator left right =>
      .operation family operator (spanless left) (spanless right)
  | .assignment operator left right => .assignment operator (spanless left) (spanless right)
  | .conditional test consequent alternate =>
      .conditional (spanless test) (spanless consequent) (spanless alternate)
  | .spread argument => .spread (spanless argument)
  | .assignmentPattern left right => .assignmentPattern (spanless left) (spanless right)
  | .array elements => .array (spanlessSlots elements)
  | .object properties => .object (spanlessList properties)
  | .property key value computed => .property (spanless key) (spanless value) computed

/-- Every node of a list without its spans. -/
def spanlessList : List Node → List Node
  | [] => []
  | node :: rest => spanless node :: spanlessList rest

/-- Every node of an array without its spans; holes stay. -/
def spanlessSlots : List (Option Node) → List (Option Node)
  | [] => []
  | none :: rest => none :: spanlessSlots rest
  | some node :: rest => some (spanless node) :: spanlessSlots rest

/-- An optional node without its spans. -/
def spanlessOption : Option Node → Option Node
  | none => none
  | some node => some (spanless node)

end

theorem spanlessList_eq_map (nodes : List Node) : spanlessList nodes = nodes.map spanless := by
  induction nodes with
  | nil => rfl
  | cons node rest ih => rw [spanlessList, ih, List.map_cons]

theorem spanlessSlots_eq_map (slots : List (Option Node)) :
    spanlessSlots slots = slots.map (Option.map spanless) := by
  induction slots with
  | nil => rfl
  | cons slot rest ih => cases slot <;> simp [spanlessSlots, ih]

theorem spanlessOption_eq_map (option : Option Node) :
    spanlessOption option = option.map spanless := by
  cases option <;> rfl

theorem spanlessKind_eq_map (kind : Kind Node) : spanlessKind kind = kind.map spanless := by
  cases kind <;>
    simp [spanlessKind, Kind.map, spanlessList_eq_map, spanlessSlots_eq_map,
      spanlessOption_eq_map]

/-- A node without spans is one whose children have none, with the span of generated nodes. -/
theorem spanless_eq (node : Node) : node.spanless = ⟨.synthetic, node.kind.map spanless⟩ := by
  obtain ⟨span, kind⟩ := node
  rw [spanless, spanlessKind_eq_map, generated]

/-- The nodes of a tree without spans are its nodes without theirs. -/
theorem nodes_spanless (node : Node) : node.spanless.nodes = node.nodes.map spanless := by
  induction node using childInduction with
  | step node ih =>
      have deeper : (node.kind.children.map spanless).flatMap nodes =
          node.kind.children.flatMap fun child => child.nodes.map spanless := by
        rw [List.flatMap_map]
        exact List.flatMap_congr ih
      rw [nodes_eq, nodes_eq node, List.map_cons, List.map_flatMap, ← deeper, ← Kind.children_map]
      congr 2
      rw [spanless_eq]

/-- Once the spans are gone, it does not matter what span a node had. -/
theorem spanless_withSpan (span : Span) (node : Node) :
    (node.withSpan span).spanless = node.spanless := by
  rw [spanless_eq, spanless_eq, withSpan]

/-- Whatever is blind to the span and the children of a node is blind to all spans in it. -/
theorem look_spanless {α : Type} (look : Node → α)
    (blind : ∀ (span other : Span) (f : Node → Node) (kind : Kind Node),
      look ⟨other, kind.map f⟩ = look ⟨span, kind⟩) (node : Node) :
    look node.spanless = look node := by
  obtain ⟨span, kind⟩ := node
  rw [spanless_eq, blind span]

/-- A name is no matter of spans. -/
theorem identifier?_spanless (node : Node) : node.spanless.identifier? = node.identifier? := by
  apply look_spanless
  intro span other f kind
  cases kind <;> rfl

theorem text?_spanless (node : Node) : node.spanless.text? = node.text? := by
  apply look_spanless
  intro span other f kind
  cases kind <;> rfl

theorem isMember_spanless (node : Node) : node.spanless.isMember = node.isMember := by
  apply look_spanless
  intro span other f kind
  cases kind <;> rfl

/-- Nor is the tail of a chain. -/
theorem chainTail?_spanless (node : Node) : node.spanless.chainTail? = node.chainTail? := by
  fun_induction chainTail? with
  | case1 span owner inner name => rfl
  | case2 span owner inner name computed bare =>
      show chainTail? ⟨.synthetic, .member owner.spanless ⟨.synthetic, .identifier name⟩ computed⟩ =
        some name
      simp [chainTail?, bare]
  | case3 span owner part computed other ih =>
      have unnamed : part.identifier? = none := by
        obtain ⟨inner, kind⟩ := part
        cases kind <;> first | rfl | exact absurd rfl (other _ _)
      have stillUnnamed : part.spanless.identifier? = none := by
        rw [identifier?_spanless, unnamed]
      rw [spanless_eq, Kind.map, chainTail?_member stillUnnamed, ih]
  | case4 node _ other =>
      apply chainTail?_of_not_member
      rw [isMember_spanless]
      obtain ⟨span, kind⟩ := node
      cases kind <;> first | rfl | exact absurd rfl (other _ _ _ _)

/-! ### Texts -/

theorem listTexts_eq_map (nodes : List Node) : listTexts nodes = nodes.map canonicalText := by
  induction nodes with
  | nil => rfl
  | cons node rest ih => rw [listTexts, ih, List.map_cons]

theorem slotTexts_eq_map (slots : List (Option Node)) :
    slotTexts slots = slots.map optionText := by
  induction slots with
  | nil => rfl
  | cons slot rest ih => cases slot <;> rw [slotTexts, ih, List.map_cons, optionText]

/-- Two nodes that differ in spans alone, and of which no text says where they stand: they have one text,
and one text for every object along the chain that they may be. -/
structure Twin (node other : Node) : Prop where
  spanless : node.spanless = other.spanless
  text : node.canonicalText = other.canonicalText
  objects : node.chainObjects = other.chainObjects

namespace Twin

variable {node other : Node}

/-- Twins are members, or neither is. -/
theorem isMember (twin : Twin node other) : node.isMember = other.isMember := by
  rw [← isMember_spanless, twin.spanless, isMember_spanless]

/-- A node and the same node from other stretches of source text. -/
theorem withSpan (span another : Span) (node : Node) :
    Twin (node.withSpan span) (node.withSpan another) where
  spanless := by rw [spanless_withSpan, spanless_withSpan]
  text := rfl
  objects := by
    obtain ⟨_, kind⟩ := node
    cases kind <;> rfl

end Twin

/-- The text of a kind that is no template is made of the texts of its children and of what tells which of
them are members. -/
theorem kindText_map_congr {α : Type} {f g : α → Node} {kind : Kind α}
    (plain : ∀ quasis expressions, kind ≠ .template quasis expressions)
    (texts : ∀ child ∈ kind.children, (f child).canonicalText = (g child).canonicalText)
    (members : ∀ child ∈ kind.children, (f child).isMember = (g child).isMember) :
    kindText (kind.map f) = kindText (kind.map g) := by
  have list {part : List α} (inside : ∀ child ∈ part, child ∈ kind.children) :
      listTexts (part.map f) = listTexts (part.map g) := by
    rw [listTexts_eq_map, listTexts_eq_map, List.map_map, List.map_map]
    exact List.map_congr_left fun child mem => texts child (inside child mem)
  have option {part : Option α} (inside : ∀ child, part = some child → child ∈ kind.children) :
      optionText (part.map f) = optionText (part.map g) := by
    cases part with
    | none => rfl
    | some child => exact texts child (inside child rfl)
  -- Apart from slots, only kinds with a text of several forms are split up any further.
  cases kind with
  | template quasis expressions => exact absurd rfl (plain quasis expressions)
  | array elements =>
      have slots : slotTexts (elements.map (Option.map f)) =
          slotTexts (elements.map (Option.map g)) := by
        rw [slotTexts_eq_map, slotTexts_eq_map, List.map_map, List.map_map]
        refine List.map_congr_left fun element mem => option fun child eq => ?_
        exact List.mem_flatMap.mpr ⟨element, mem, by simp [eq]⟩
      simp only [Kind.map, kindText, slots]
  | declarator target init =>
      cases init <;> simp_all [Kind.map, Kind.children, kindText]
  | method home form key computed params body =>
      cases home <;> simp_all [Kind.map, Kind.children, kindText]
  | unary operator leading argument =>
      cases leading <;> simp_all [Kind.map, Kind.children, kindText]
  | update operator leading argument =>
      cases leading <;> simp_all [Kind.map, Kind.children, kindText]
  | property key value computed =>
      cases computed <;> simp_all [Kind.map, Kind.children, kindText]
  | _ => simp_all [Kind.map, Kind.children, kindText]

/-- Nodes of one kind are twins when it is no template and their children are. -/
theorem Twin.of_children {α : Type} {f g : α → Node} {kind : Kind α}
    (plain : ∀ quasis expressions, kind ≠ .template quasis expressions)
    (each : ∀ child ∈ kind.children, Twin (f child) (g child)) (span other : Span) :
    Twin ⟨span, kind.map f⟩ ⟨other, kind.map g⟩ where
  spanless := by
    rw [spanless_eq, spanless_eq, Kind.map_map, Kind.map_map,
      Kind.map_congr fun child mem => (each child mem).spanless]
  text := kindText_map_congr plain (fun child mem => (each child mem).text)
    fun child mem => (each child mem).isMember
  objects := by
    cases kind with
    | member owner part computed =>
        have owners := each owner List.mem_cons_self
        have parts := each part (List.mem_cons_of_mem owner List.mem_cons_self)
        simp only [Kind.map, chainObjects, owners.text, parts.objects]
    | _ => rfl

/-! ### Trees without templates -/

/-- There is no template in the tree. -/
def Untemplated (root : Node) : Prop :=
  ∀ node ∈ root.nodes, ∀ quasis expressions, node.kind ≠ .template quasis expressions

namespace Untemplated

variable {node child : Node}

/-- A tree without templates is no template. -/
theorem kind_ne (plain : node.Untemplated) (quasis : List Quasi) (expressions : List Node) :
    node.kind ≠ .template quasis expressions :=
  plain node node.mem_nodes_self quasis expressions

/-- No child of a tree without templates has one. -/
theorem of_mem_children (plain : node.Untemplated) (mem : child ∈ node.kind.children) :
    child.Untemplated :=
  fun other inside => plain other (mem_nodes_of_mem_children mem inside)

/-- Without its spans a tree has as many templates. -/
theorem iff_spanless : node.spanless.Untemplated ↔ node.Untemplated := by
  have same (other : Node) :
      (∀ quasis expressions, other.spanless.kind ≠ .template quasis expressions) =
        ∀ quasis expressions, other.kind ≠ .template quasis expressions := by
    apply look_spanless fun node => ∀ quasis expressions, node.kind ≠ .template quasis expressions
    intro span another f kind
    cases kind <;> simp [Kind.map]
  unfold Untemplated
  rw [nodes_spanless, List.forall_mem_map]
  simp only [same]

/-- Nothing but the spans is lost with them. -/
theorem twin (plain : node.Untemplated) : Twin node.spanless node := by
  induction node using childInduction with
  | step node ih =>
      obtain ⟨span, kind⟩ := node
      have twin := Twin.of_children plain.kind_ne
        (fun child mem => ih child mem (plain.of_mem_children mem)) .synthetic span
      rw [Kind.map_id] at twin
      rw [spanless_eq]
      exact twin

end Untemplated

end Node

/-! ### Positions -/

namespace Position

variable (position : Position)

/-- The walk comes to a child in the same position, spans or not. -/
theorem inside_spanless {node : Node} (plain : node.Untemplated) (place : Place) (child : Node) :
    position.inside node.spanless place child.spanless = position.inside node place child := by
  have called : calleeText node.spanless = calleeText node := by
    obtain ⟨span, kind⟩ := node
    cases kind with
    | call callee arguments => exact (plain.of_mem_children List.mem_cons_self).twin.text
    | _ => rfl
  have property (computed : Bool) : position.memberProperty computed child.spanless =
      position.memberProperty computed child := by
    unfold memberProperty
    rw [Node.isMember_spanless, Node.identifier?_spanless]
  unfold inside callee argument
  rw [called, Node.identifier?_spanless]
  simp only [property]

end Position

/-- The children of a tree without its spans stand in the same positions. -/
theorem Node.places_spanless {node : Node} (plain : node.Untemplated) (position : Position) :
    node.spanless.places position =
      (node.places position).map fun child => (child.1, child.2.spanless) := by
  rw [places_eq, places_eq, Kind.map_map, spanless_eq, Kind.labelled_map, Kind.map_map,
    ← spanless_eq]
  simp only [position.inside_spanless plain]

/-! ### The walk -/

namespace Rules

variable (rules : Rules)

/-- A call of the package version is one without its spans, too. -/
theorem versionCall?_spanless (callee : Node) (arguments : List Node) :
    versionCall? callee.spanless (arguments.map Node.spanless) = versionCall? callee arguments := by
  unfold versionCall?
  rw [Node.identifier?_spanless]
  split
  · match arguments with
    | [] => rfl
    | [argument] =>
        show argument.spanless.text?.map _ = _
        rw [Node.text?_spanless]
    | _ :: _ :: _ => rfl
  · rfl

/-- It asks for the same package. -/
theorem asked?_spanless (position : Position) (node : Node) :
    asked? position node.spanless = asked? position node := by
  rw [Node.spanless_eq]
  obtain ⟨span, kind⟩ := node
  cases kind with
  | call callee arguments =>
      simp only [asked?, Kind.map, versionCall?_spanless]
  | _ => rfl

variable {rules} {position : Position} {node : Node}

/-- A tree is made up anew as its twin is when its children are walked over in the same way. -/
theorem twin_rebuilt (plain : node.Untemplated)
    (each : ∀ child ∈ (node.places position).children,
      Node.Twin (rules.visit child.1 child.2.spanless).value (rules.visit child.1 child.2).value) :
    Node.Twin (rules.rebuilt position node.spanless) (rules.rebuilt position node) := by
  rw [rebuilt, rebuilt, Node.places_spanless plain, Kind.map_map]
  refine Node.Twin.of_children ?_ each _ _
  intro quasis expressions template
  -- The positions forgotten, the kind is that of the node.
  have same := node.map_snd_places position
  rw [template] at same
  exact plain.kind_ne _ _ same.symm

/-- A node is read under the same name when what becomes of it is the same but for spans. -/
theorem readName?_spanless
    (made : Node.Twin (rules.rebuilt .read node.spanless) (rules.rebuilt .read node)) :
    rules.readName? node.spanless = rules.readName? node := by
  by_cases isMember : node.isMember
  · have stillMember : node.spanless.isMember := by rwa [Node.isMember_spanless]
    rw [readName?_of_isMember rules isMember, readName?_of_isMember rules stillMember,
      Node.chainTail?_spanless]
    congr 1
    funext tail
    rw [Node.chainName, Node.chainName, made.objects]
  · obtain ⟨span, kind⟩ := node
    cases kind <;> first | rfl | exact absurd rfl isMember

/-- The same literal stands in for a node under the same name. -/
theorem replacement?_spanless
    (made : Node.Twin (rules.rebuilt .read node.spanless) (rules.rebuilt .read node)) :
    rules.replacement? position node.spanless = rules.replacement? position node := by
  by_cases isCall : ∃ callee arguments, node.kind = .call callee arguments
  · obtain ⟨span, kind⟩ := node
    obtain ⟨callee, arguments, rfl⟩ := isCall
    rw [Node.spanless_eq]
    simp only [replacement?, Kind.map, callLiteral?, versionCall?_spanless]
  · have noCall : ∀ callee arguments, node.kind ≠ .call callee arguments :=
      fun callee arguments eq => isCall ⟨callee, arguments, eq⟩
    have stillNoCall : ∀ callee arguments, node.spanless.kind ≠ .call callee arguments := by
      intro callee arguments eq
      rw [Node.spanless_eq] at eq
      obtain ⟨span, kind⟩ := node
      cases kind <;> simp [Kind.map] at eq
      exact noCall _ _ rfl
    rw [replacement?_of_no_call rules noCall, replacement?_of_no_call rules stillNoCall,
      readName?_spanless made]

/-- The walk over a tree without its spans goes the way of the walk over the tree: the same happens on
the way, and twins come out. -/
theorem visit_spanless (plain : node.Untemplated) (position : Position) :
    (rules.visit position node.spanless).events = (rules.visit position node).events ∧
      Node.Twin (rules.visit position node.spanless).value (rules.visit position node).value := by
  induction node using Node.childInduction generalizing position with
  | step node ih =>
      -- The children are compared in every position: the name under which a chain is read is made of
      -- the chain as it is made up anew where it is read, wherever it stands.
      have inside (other : Position) : ∀ child ∈ (node.places other).children,
          (rules.visit child.1 child.2.spanless).events = (rules.visit child.1 child.2).events ∧
            Node.Twin (rules.visit child.1 child.2.spanless).value
              (rules.visit child.1 child.2).value := by
        intro child mem
        have among := Node.mem_children_of_mem_places mem
        exact ih child.2 among (plain.of_mem_children among) child.1
      have made (other : Position) :
          Node.Twin (rules.rebuilt other node.spanless) (rules.rebuilt other node) :=
        twin_rebuilt plain fun child mem => (inside other child mem).2
      have own : rules.replacement? position node.spanless = rules.replacement? position node :=
        replacement?_spanless (made .read)
      constructor
      · rw [events_visit, events_visit, Node.places_spanless plain, Kind.children_map,
          List.flatMap_map, ownEvents, ownEvents, own, asked?_spanless]
        rw [List.flatMap_congr fun child mem => (inside position child mem).1]
      · rw [value_visit, value_visit, own]
        cases rules.replacement? position node with
        | none => exact made position
        | some found => exact Node.Twin.withSpan _ _ found.2

end Rules

/-! ### Runs -/

/-- Two runs that fail with the same error, or that both make a tree, with equal reports and with trees
that differ in nothing but spans. -/
inductive Imprinted.Agree : Except LookupError Imprinted → Except LookupError Imprinted → Prop where
  | failed (error : LookupError) : Agree (.error error) (.error error)
  | made {imprinted copy : Imprinted} (report : imprinted.report = copy.report)
      (root : imprinted.root.spanless = copy.root.spanless) : Agree (.ok imprinted) (.ok copy)

namespace Imprinted

theorem Agree.symm {run other : Except LookupError Imprinted} (agree : Agree run other) :
    Agree other run := by
  cases agree with
  | failed error => exact .failed error
  | made report root => exact .made report.symm root.symm

theorem Agree.trans {run other third : Except LookupError Imprinted} (agree : Agree run other)
    (onward : Agree other third) : Agree run third := by
  cases agree with
  | failed error => exact onward
  | made report root =>
      cases onward with
      | made further deeper => exact .made (report.trans further) (root.trans deeper)

variable {root other : Node}

/-- The rules make the same tree but for spans, with the same report, of a tree without its spans. -/
theorem ofRules_spanless (plain : root.Untemplated) (rules : Rules) :
    (ofRules rules root.spanless).report = (ofRules rules root).report ∧
      (ofRules rules root.spanless).root.spanless = (ofRules rules root).root.spanless := by
  obtain ⟨events, twin⟩ := rules.visit_spanless plain .read
  refine ⟨?_, twin.spanless⟩
  rw [ofRules, ofRules, Traced.replacedNames, Traced.replacedNames, events]

/-- A run on a tree without its spans agrees with the run on the tree, and remembers the same. -/
theorem ofTree_spanless (plain : root.Untemplated) (host : Host) (settings : Settings) (memo : Memo)
    (constants : Constants) (file : Path) :
    Agree (ofTree host settings memo constants file root.spanless).1
        (ofTree host settings memo constants file root).1 ∧
      (ofTree host settings memo constants file root.spanless).2 =
        (ofTree host settings memo constants file root).2 := by
  have packages : Rules.packagesOf root.spanless = Rules.packagesOf root := by
    rw [Rules.packagesOf, Rules.packagesOf, Traced.packages, Traced.packages,
      (Rules.visit_spanless plain .read).1]
  rw [ofTree_eq, ofTree_eq, packages, Lookup.andThen, Lookup.andThen]
  split
  · exact ⟨.failed _, rfl⟩
  · obtain ⟨report, same⟩ := ofRules_spanless plain
      (Rules.ofSettings settings constants host.clock _)
    exact ⟨.made report same, rfl⟩

/-- Runs on trees without templates that differ in nothing but spans agree and remember the same. -/
theorem ofTree_agree (plain : root.Untemplated) (same : root.spanless = other.spanless) (host : Host)
    (settings : Settings) (memo : Memo) (constants : Constants) (file : Path) :
    Agree (ofTree host settings memo constants file root).1
        (ofTree host settings memo constants file other).1 ∧
      (ofTree host settings memo constants file root).2 =
        (ofTree host settings memo constants file other).2 := by
  have otherPlain : other.Untemplated := by
    rwa [← Node.Untemplated.iff_spanless, ← same, Node.Untemplated.iff_spanless]
  obtain ⟨agree, memory⟩ := ofTree_spanless plain host settings memo constants file
  obtain ⟨otherAgree, otherMemory⟩ := ofTree_spanless otherPlain host settings memo constants file
  rw [← same] at otherAgree otherMemory
  exact ⟨agree.symm.trans otherAgree, memory.symm.trans otherMemory⟩

end Imprinted

/-- Where the nodes of a tree without templates stand in the source text has no say in what is done with
it. With other spans a run on it fails with the same error or makes the same tree but for spans, with
the same report, whether the constants of the file are given or looked up; and the session remembers
the same afterwards. -/
theorem spans_have_no_say {root other : Node} (plain : root.Untemplated)
    (same : root.spanless = other.spanless) (session : Session) (host : Host) (file : Path) :
    (∀ constants,
        Imprinted.Agree (session.imprint host constants file root).1
            (session.imprint host constants file other).1 ∧
          (session.imprint host constants file root).2 =
            (session.imprint host constants file other).2) ∧
      Imprinted.Agree (session.transform host file root).1 (session.transform host file other).1 ∧
      (session.transform host file root).2 = (session.transform host file other).2 := by
  have given (session : Session) (constants : Constants) :
      Imprinted.Agree (session.imprint host constants file root).1
          (session.imprint host constants file other).1 ∧
        (session.imprint host constants file root).2 =
          (session.imprint host constants file other).2 := by
    obtain ⟨agree, memory⟩ :=
      Imprinted.ofTree_agree plain same host session.settings session.memo constants file
    refine ⟨agree, ?_⟩
    rw [Session.imprint, Session.imprint, Session.answer, Session.answer, memory]
  refine ⟨given session, ?_⟩
  rw [Session.transform, Session.transform]
  split
  · exact ⟨.failed _, rfl⟩
  · exact given _ _

namespace Sample

/-- The tree of `f(SELF, a.OTHER, __packageversion__("dep"), OTHER)` with spans in disorder. -/
def scattered : Node :=
  ⟨⟨9, 3⟩, .call ⟨⟨70, 1⟩, .identifier "f"⟩
    [⟨.synthetic, .identifier "SELF"⟩,
      ⟨⟨5, 5⟩, .member ⟨⟨8, 9⟩, .identifier "a"⟩ ⟨⟨4, 2⟩, .identifier "OTHER"⟩ false⟩,
      ⟨⟨0, 0⟩, .call ⟨⟨60, 61⟩, .identifier "__packageversion__"⟩
        [⟨⟨2, 1⟩, .leaf (.text "dep")⟩]⟩,
      ⟨⟨1, 9⟩, .identifier "OTHER"⟩]⟩

theorem untemplated_root : root.Untemplated := by
  intro node mem quasis expressions template
  simp only [root, Node.nodes_eq, Kind.children, List.flatMap_cons, List.flatMap_nil,
    List.append_nil, List.cons_append, List.nil_append, List.mem_cons, List.not_mem_nil,
    or_false] at mem
  rcases mem with rfl | rfl | rfl | rfl | rfl | rfl | rfl | rfl | rfl | rfl <;> cases template

end Sample

/-- The call is imprinted with spans in disorder as it is with its own, and three names are replaced. -/
theorem sample_spans_have_no_say :
    Sample.root.Untemplated ∧ Sample.root.spanless = Sample.scattered.spanless ∧
      ∃ imprinted copy after,
        (Session.start Sample.settings "").imprint Sample.host (.outside "") ⟨"/app/main.js"⟩
            Sample.root = (.ok imprinted, after) ∧
          (Session.start Sample.settings "").imprint Sample.host (.outside "") ⟨"/app/main.js"⟩
            Sample.scattered = (.ok copy, after) ∧
          imprinted.report = ⟨3, [("OTHER", 1), ("SELF", 1), ("__packageversion__", 1)]⟩ ∧
          imprinted.report = copy.report ∧ imprinted.root.spanless = copy.root.spanless := by
  have report : ((Session.start Sample.settings "").imprint Sample.host (.outside "")
      ⟨"/app/main.js"⟩ Sample.root).1.toOption.map Imprinted.report =
        some ⟨3, [("OTHER", 1), ("SELF", 1), ("__packageversion__", 1)]⟩ := by
    decide +kernel
  have same : Sample.root.spanless = Sample.scattered.spanless := rfl
  refine ⟨Sample.untemplated_root, same, ?_⟩
  obtain ⟨agree, memory⟩ := (spans_have_no_say Sample.untemplated_root same
    (.start Sample.settings "") Sample.host ⟨"/app/main.js"⟩).1 (.outside "")
  revert agree memory report
  rcases (Session.start Sample.settings "").imprint Sample.host (.outside "") ⟨"/app/main.js"⟩
    Sample.root with ⟨result, after⟩
  rcases (Session.start Sample.settings "").imprint Sample.host (.outside "") ⟨"/app/main.js"⟩
    Sample.scattered with ⟨otherResult, other⟩
  rintro report agree rfl
  cases agree with
  | failed error => cases report
  | @made imprinted copy reports roots =>
      exact ⟨imprinted, copy, after, rfl, rfl, Option.some.inj report, reports, roots⟩

end Imprint
