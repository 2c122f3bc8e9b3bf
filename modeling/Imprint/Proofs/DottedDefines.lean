/-
Module: Imprint.Proofs.DottedDefines
Purpose: What the define of a dotted name matches. A chain whose objects are dotted paths is replaced as a
  whole by the define of the name that it spells, if there is one and nothing stands in for any part of
  the paths; and without such a define it stays as it is. Built-ins have no say in it.
Main exports: Node.Alike, Node.Spine, Node.canonicalText_of_segments, Rules.PassesOver,
  Rules.visit_spine, dotted_define_matches_spelling
-/
import Imprint.Proofs.Precedence
import Imprint.Proofs.SecondRuns

namespace Imprint

/-! ### Dotted paths -/

/-- The first segment of a dotted path is not empty. -/
def Text.IsHeaded (path : String) : Prop := (split '.' path).head? ≠ some ""

namespace Node

/-- Two trees are the same syntax: they differ in nothing but the spans of their nodes. -/
inductive Alike : Node → Node → Prop where
  | mk {span other : Span} {kind likeness : Kind Node} (shape : kind.shape = likeness.shape)
      (children : List.Forall₂ Alike kind.children likeness.children) :
      Alike ⟨span, kind⟩ ⟨other, likeness⟩

namespace Alike

variable {node owner part : Node} {span : Span}

/-- What is like an identifier is one with the same name. -/
theorem identifier {name : String} (alike : Alike node ⟨span, .identifier name⟩) :
    ∃ other, node = ⟨other, .identifier name⟩ := by
  obtain @⟨other, _, kind, _, shape, -⟩ := alike
  cases kind <;> simp [Kind.shape, Kind.map] at shape
  exact ⟨other, by rw [shape]⟩

/-- What is like a leaf is one with the same content. -/
theorem leaf {content : Leaf} (alike : Alike node ⟨span, .leaf content⟩) :
    ∃ other, node = ⟨other, .leaf content⟩ := by
  obtain @⟨other, _, kind, _, shape, -⟩ := alike
  cases kind <;> simp [Kind.shape, Kind.map] at shape
  exact ⟨other, by rw [shape]⟩

/-- What is like a member is one whose parts are alike. -/
theorem member {computed : Bool} (alike : Alike node ⟨span, .member owner part computed⟩) :
    ∃ other likeOwner likePart, node = ⟨other, .member likeOwner likePart computed⟩ ∧
      Alike likeOwner owner ∧ Alike likePart part := by
  obtain @⟨other, _, kind, _, shape, children⟩ := alike
  cases kind with
  | member likeOwner likePart likeComputed =>
      simp [Kind.shape, Kind.map] at shape
      simp [Kind.children] at children
      exact ⟨other, likeOwner, likePart, by rw [shape], children⟩
  | _ => simp [Kind.shape, Kind.map] at shape

/-- The same syntax is the same path. -/
theorem pathNames? {other : Node} (alike : Alike node other) {names : List String}
    (path : other.pathNames? = some names) : node.pathNames? = some names := by
  fun_induction Node.pathNames? other generalizing node names with
  | case1 span name =>
      obtain ⟨_, rfl⟩ := alike.identifier
      exact path
  | case2 span =>
      obtain ⟨_, rfl⟩ := alike.leaf
      exact path
  | case3 span owner inner name ih =>
      obtain ⟨_, likeOwner, _, rfl, owners, parts⟩ := alike.member
      obtain ⟨_, rfl⟩ := parts.identifier
      obtain ⟨front, found, rfl⟩ := Option.map_eq_some_iff.mp path
      simp [Node.pathNames?, ih owners found]
  | case4 => cases path

end Alike

/-- The names of a dotted path are its segments. -/
theorem pathNames?_dotted (path : String) :
    (dotted path).pathNames? = some (Text.split '.' path) := by
  have grown (segments names : List String) (object : Node)
      (start : object.pathNames? = some names) :
      (segments.foldl (fun object segment => member object (identifier segment))
        object).pathNames? = some (names ++ segments) := by
    induction segments generalizing names object with
    | nil => simpa using start
    | cons segment rest ih =>
        have next : (member object (identifier segment)).pathNames? = some (names ++ [segment]) := by
          simp [member, identifier, generated, pathNames?, start]
        rw [List.foldl_cons, ih _ _ next, List.append_assoc, List.singleton_append]
  unfold dotted
  cases segments : Text.split '.' path with
  | nil =>
      have empty : Text.cut '.' path.toList = [] := List.map_eq_nil_iff.mp segments
      exact absurd empty (Text.cut_ne_nil '.' path.toList)
  | cons head rest => exact grown rest [head] _ rfl

/-- The canonical text of a dotted path is the path. -/
theorem canonicalText_of_segments {node : Node} {path : String} (headed : Text.IsHeaded path)
    (segments : node.pathNames? = some (Text.split '.' path)) : node.canonicalText = path := by
  rw [(canonicalText_path segments headed).1]
  exact Text.join_split '.' path

/-! ### Spines -/

/-- A member that goes on from object to object along its properties, computed or not, and ends in a name
that is not computed. -/
inductive Spine (tail : String) : List Node → Node → Prop where
  | last {span inner : Span} {owner : Node} :
      Spine tail [owner] ⟨span, .member owner ⟨inner, .identifier tail⟩ false⟩
  | more {span : Span} {owner part : Node} {owners : List Node} {computed : Bool}
      (rest : Spine tail owners part) :
      Spine tail (owner :: owners) ⟨span, .member owner part computed⟩

namespace Spine

variable {tail : String} {owners : List Node} {chain : Node}

/-- A spine is a member. -/
theorem isMember (spine : Spine tail owners chain) : chain.isMember := by
  cases spine <;> rfl

/-- The tail of the chain is the name that a spine ends in. -/
theorem chainTail? (spine : Spine tail owners chain) : chain.chainTail? = some tail := by
  induction spine with
  | last => rfl
  | more rest ih =>
      cases rest <;> exact ih

/-- The owners of the chain are those that a spine goes through. -/
theorem chainOwners (spine : Spine tail owners chain) : chain.chainOwners = owners := by
  induction spine with
  | last => rfl
  | more rest ih => rw [Node.chainOwners, ih]

/-- The name of a spine is made of the texts of its objects and of its end. -/
theorem chainName (spine : Spine tail owners chain) :
    chain.chainName tail = Text.join "." (owners.map canonicalText ++ [tail]) := by
  rw [Node.chainName, chainObjects_eq, spine.chainOwners]

end Spine

end Node

/-! ### Walks over paths and spines -/

namespace Rules

variable (rules : Rules)

/-- No beginning of a dotted path has a rule, and neither has the path itself. -/
def PassesOver (path : String) : Prop :=
  ∀ segments, segments ≠ [] → segments <+: Text.split '.' path →
    rules.literal? (Text.join "." segments) = none

variable {rules} {tail : String} {owners : List Node} {chain : Node}

/-- Nothing happens at the parts of a spine when nothing happens at its objects. -/
theorem events_inside_spine (spine : chain.Spine tail owners)
    (still : ∀ owner ∈ owners, (rules.visit .read owner).events = []) {position : Position}
    (walked : position = .read ∨ position = .chain) :
    ∀ child ∈ (chain.places position).children, (rules.visit child.1 child.2).events = [] := by
  have ne : position ≠ .kept := by
    rcases walked with rfl | rfl <;> decide
  induction spine generalizing position with
  | @last span inner owner =>
      have kept : position.memberProperty false ⟨inner, .identifier tail⟩ = .kept :=
        memberProperty_of_walked walked false _
      rw [Node.children_places_member ne, kept]
      simp only [List.forall_mem_cons, List.not_mem_nil, false_imp_iff, implies_true, and_true]
      exact ⟨still owner List.mem_cons_self, by rw [visit_kept]; rfl⟩
  | @more span owner part others computed rest ih =>
      have onward : position.memberProperty computed part = .chain := by
        rw [memberProperty_of_walked walked, if_pos rest.isMember]
      have inside : (rules.visit .chain part).events = [] := by
        have noCall := no_call_of_isMember rest.isMember
        refine rules.events_visit_eq_nil.mpr ⟨?_, ?_, asked?_of_no_call noCall⟩
        · exact ih (fun other mem => still other (List.mem_cons_of_mem owner mem)) (.inr rfl)
            (by decide)
        · rw [replacement?_of_no_call rules noCall, if_neg (by decide)]
      rw [Node.children_places_member ne, onward]
      simp only [List.forall_mem_cons, List.not_mem_nil, false_imp_iff, implies_true, and_true]
      exact ⟨still owner List.mem_cons_self, inside⟩

/-- A spine is replaced under its own name or stays as it is, when nothing happens at its objects. -/
theorem visit_spine (spine : chain.Spine tail owners)
    (still : ∀ owner ∈ owners, (rules.visit .read owner).events = []) :
    rules.visit .read chain = rules.tracer.substitute (chain.chainName tail) chain := by
  have inside := events_inside_spine spine still (.inl rfl)
  have same : rules.rebuilt .read chain = chain := by
    apply rules.rebuilt_eq_self
    intro child mem
    apply rules.value_visit_of_replacedNames_nil
    exact rules.replacedNames_of_events_nil (inside child mem)
  have noCall := no_call_of_isMember spine.isMember
  have own : rules.replacement? .read chain =
      (rules.literal? (chain.chainName tail)).map fun literal =>
        (chain.chainName tail, literal) := by
    rw [replacement?_of_no_call rules noCall, if_pos rfl,
      readName?_of_isMember rules spine.isMember, spine.chainTail?, same]
    rfl
  apply Traced.ext
  · rw [value_visit, own, value_substitute, same]
    cases rules.literal? (chain.chainName tail) <;> rfl
  · rw [events_visit, List.flatMap_eq_nil_iff.mpr inside, ownEvents, own,
      asked?_of_no_call noCall, events_substitute]
    cases rules.literal? (chain.chainName tail) <;> rfl

/-- Nothing happens on a walk over a path when none of its beginnings has a rule. -/
theorem events_visit_path {node : Node} {names : List String}
    (path : node.pathNames? = some names) (named : names.head? ≠ some "")
    (unruled : ∀ segments, segments ≠ [] → segments <+: names →
      rules.literal? (Text.join "." segments) = none) :
    (rules.visit .read node).events = [] := by
  fun_induction Node.pathNames? node generalizing names with
  | case1 span name =>
      obtain rfl := Option.some.inj path
      have missing : rules.literal? name = none :=
        unruled [name] (List.cons_ne_nil name []) (List.prefix_refl [name])
      rw [visit_of_ne_kept rules (by decide), Walker.visitKind, events_substitute, missing]
      rfl
  | case2 span =>
      rw [visit_of_ne_kept rules (by decide)]
      rfl
  | case3 span owner inner name ih =>
      obtain ⟨front, found, rfl⟩ := Option.map_eq_some_iff.mp path
      have first : front.head? ≠ some "" := fun empty => named (by simp [empty])
      have still : (rules.visit .read owner).events = [] := by
        apply ih found first
        intro segments filled before
        exact unruled segments filled (before.trans (List.prefix_append front [name]))
      obtain ⟨text, filled, -⟩ := Node.canonicalText_path found first
      have spine : Node.Spine name [owner] ⟨span, .member owner ⟨inner, .identifier name⟩ false⟩ :=
        .last
      have spelled : Node.chainName ⟨span, .member owner ⟨inner, .identifier name⟩ false⟩ name =
          Text.join "." (front ++ [name]) := by
        rw [spine.chainName, Text.join_append filled (List.cons_ne_nil name []), ← text]
        rfl
      have missing : rules.literal? (Text.join "." (front ++ [name])) = none :=
        unruled _ (by simp) (List.prefix_refl _)
      rw [visit_spine spine (by simpa using still), spelled, events_substitute, missing]
      rfl
  | case4 => cases path

end Rules

/-- The objects of a spine are dotted paths. -/
def Node.ArePaths (owners : List Node) (paths : List String) : Prop :=
  List.Forall₂ (fun owner path => Text.IsHeaded path ∧ Alike owner (dotted path)) owners paths

section Chains

variable {rules : Rules} {tail : String} {owners : List Node} {paths : List String} {chain : Node}

/-- The texts of paths are the paths. -/
theorem Node.canonicalTexts_of_arePaths (arePaths : ArePaths owners paths) :
    owners.map canonicalText = paths := by
  induction arePaths with
  | nil => rfl
  | cons first _ ih =>
      have segments := first.2.pathNames? (pathNames?_dotted _)
      rw [List.map_cons, canonicalText_of_segments first.1 segments, ih]

/-- Nothing happens on paths that the rules pass over. -/
theorem Rules.events_visit_of_arePaths (arePaths : Node.ArePaths owners paths)
    (unruled : ∀ path ∈ paths, rules.PassesOver path) :
    ∀ owner ∈ owners, (rules.visit .read owner).events = [] := by
  induction arePaths with
  | nil => simp
  | cons first _ ih =>
      obtain ⟨passes, others⟩ := List.forall_mem_cons.mp unruled
      have segments := first.2.pathNames? (Node.pathNames?_dotted _)
      exact List.forall_mem_cons.mpr ⟨events_visit_path segments first.1 passes, ih others⟩

end Chains

/-- The define of a dotted name matches just the chain that spells it. A chain of dotted paths, of which
no part has a rule, gives way to the literal of the define of its name, as a whole and only once; it
stays as it is when there is no such literal. The text of a dotted path is the path itself, and no
built-in has the name of a chain. -/
theorem dotted_define_matches_spelling (settings : Settings) (constants : Constants) (clock : Int)
    (versions : List (String × Option String)) :
    (∀ (tail : String) (owners : List Node) (paths : List String) (chain : Node),
        chain.Spine tail owners → Node.ArePaths owners paths →
        (∀ path ∈ paths, (Rules.ofSettings settings constants clock versions).PassesOver path) →
        (∀ literal,
          (settings.define? (Text.join "." (paths ++ [tail]))).bind Value.literal? = some literal →
            (Rules.ofSettings settings constants clock versions).visit .read chain =
              ⟨literal.withSpan chain.span, [.replaced (Text.join "." (paths ++ [tail]))]⟩) ∧
          ((settings.define? (Text.join "." (paths ++ [tail]))).bind Value.literal? = none →
            (Rules.ofSettings settings constants clock versions).visit .read chain =
              ⟨chain, []⟩)) ∧
      (∀ path, Text.IsHeaded path → (Node.dotted path).canonicalText = path) ∧
      ∀ (root node : Node) (name : String), node.isMember →
        (Rules.ofSettings settings constants clock versions).Replaces .read root node name →
        BuiltIn.ofIdentifier? name = none := by
  refine ⟨?_, ?_, ?_⟩
  · intro tail owners paths chain spine arePaths unruled
    have walked := Rules.visit_spine spine (Rules.events_visit_of_arePaths arePaths unruled)
    have spelled := spine.chainName
    rw [Node.canonicalTexts_of_arePaths arePaths] at spelled
    have dot := Node.dot_mem_chainName spine.isMember tail
    rw [spelled] at walked dot
    have rule : (Rules.ofSettings settings constants clock versions).literal?
        (Text.join "." (paths ++ [tail])) =
          (settings.define? (Text.join "." (paths ++ [tail]))).bind Value.literal? :=
      Rules.lookup_of_dot dot
    rw [walked, Walker.substitute, Rules.literal?_tracer, rule]
    constructor
    · intro literal defined
      rw [defined]
      rfl
    · intro undefined
      rw [undefined]
      rfl
  · intro path headed
    exact Node.canonicalText_of_segments headed (Node.pathNames?_dotted path)
  · intro root node name isMember replaces
    obtain ⟨position, literal, -, replaced⟩ := replaces
    exact BuiltIn.ofIdentifier?_of_dot (Rules.dot_mem_of_isMember isMember replaced)

namespace Sample

/-- A define for a chain of two paths. -/
def chained : Settings := Settings.initial.withDefine "process.env.x.y" (.bool true)

/-- The source tree of `process.env[x.y]`. -/
def processEnvChain : Node :=
  ⟨⟨2, 18⟩, .member processEnv
    ⟨⟨14, 17⟩, .member ⟨⟨14, 15⟩, .identifier "x"⟩ ⟨⟨16, 17⟩, .identifier "y"⟩ false⟩ true⟩

theorem segments_processEnv : Text.split '.' "process.env" = ["process", "env"] := by
  decide +kernel

theorem segments_x : Text.split '.' "x" = ["x"] := by
  decide +kernel

theorem spine_processEnvChain :
    processEnvChain.Spine "y" [processEnv, ⟨⟨14, 15⟩, .identifier "x"⟩] :=
  .more .last

theorem arePaths_processEnvChain :
    Node.ArePaths [processEnv, ⟨⟨14, 15⟩, .identifier "x"⟩] ["process.env", "x"] := by
  refine .cons ⟨?_, ?_⟩ (.cons ⟨?_, ?_⟩ .nil)
  · simp [Text.IsHeaded, segments_processEnv]
  · rw [Node.dotted, segments_processEnv]
    exact .mk rfl (.cons (.mk rfl .nil) (.cons (.mk rfl .nil) .nil))
  · simp [Text.IsHeaded, segments_x]
  · rw [Node.dotted, segments_x]
    exact .mk rfl .nil

theorem passesOver_chained :
    ∀ path ∈ ["process.env", "x"],
      (Rules.ofSettings chained (.outside "") 0 []).PassesOver path := by
  intro path mem segments filled before
  simp only [List.mem_cons, List.not_mem_nil, or_false] at mem
  rcases mem with rfl | rfl
  · rw [segments_processEnv] at before
    obtain rfl | ⟨rest, rfl, tail⟩ := List.prefix_cons_iff.mp before
    · exact absurd rfl filled
    · obtain rfl | ⟨last, rfl, nothing⟩ := List.prefix_cons_iff.mp tail
      · rfl
      · obtain rfl := List.prefix_nil.mp nothing
        rfl
  · rw [segments_x] at before
    obtain rfl | ⟨rest, rfl, nothing⟩ := List.prefix_cons_iff.mp before
    · exact absurd rfl filled
    · obtain rfl := List.prefix_nil.mp nothing
      rfl

end Sample

/-- The chain `process.env[x.y]` gives way to the define of `process.env.x.y`. -/
theorem dotted_define_matches_processEnvChain :
    Sample.processEnvChain.Spine "y" [Sample.processEnv, ⟨⟨14, 15⟩, .identifier "x"⟩] ∧
      Node.ArePaths [Sample.processEnv, ⟨⟨14, 15⟩, .identifier "x"⟩] ["process.env", "x"] ∧
      (∀ path ∈ ["process.env", "x"],
        (Rules.ofSettings Sample.chained (.outside "") 0 []).PassesOver path) ∧
      (Rules.ofSettings Sample.chained (.outside "") 0 []).visit .read Sample.processEnvChain =
        ⟨(Node.boolean true).withSpan ⟨2, 18⟩, [.replaced "process.env.x.y"]⟩ ∧
      (Node.dotted "process.env").canonicalText = "process.env" ∧
      BuiltIn.ofIdentifier? "process.env.x.y" = none := by
  obtain ⟨matching, texts, names⟩ :=
    dotted_define_matches_spelling Sample.chained (.outside "") 0 []
  refine ⟨Sample.spine_processEnvChain, Sample.arePaths_processEnvChain,
    Sample.passesOver_chained, ?_, ?_, ?_⟩
  · exact (matching "y" _ _ _ Sample.spine_processEnvChain Sample.arePaths_processEnvChain
      Sample.passesOver_chained).1 (Node.boolean true) rfl
  · apply texts
    simp [Text.IsHeaded, Sample.segments_processEnv]
  · exact names Sample.processEnvChain Sample.processEnvChain _ rfl
      ⟨.read, Node.boolean true, .here, rfl⟩

end Imprint
