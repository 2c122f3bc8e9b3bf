/-
Module: Imprint.Proofs.ChainSpelling
Purpose: What the name of a replaced member chain says about the chain. The name is read off the
  canonical texts of the objects along the chain, after the walk over them, and those texts are lossy:
  the name does not determine the source text. It leaves only flat objects to choose from, and it is
  the source spelling when the objects are paths that the walk leaves as they are.
Main exports: Node.pathNames?, Node.spelledNames?, Node.Flat, member_replaced_under
-/
import Imprint.Proofs.TextPieces
import Imprint.Proofs.WalkSteps

namespace Imprint

/-! ### Source spellings -/

namespace Node

/-- The names of a path: an identifier or `this`, and then identifiers that are not computed. -/
def pathNames? : Node → Option (List String)
  | ⟨_, .identifier name⟩ => some [name]
  | ⟨_, .leaf .this⟩ => some ["this"]
  | ⟨_, .member owner ⟨_, .identifier name⟩ false⟩ => (pathNames? owner).map (· ++ [name])
  | _ => none

/-- The objects along a chain, the outermost first. -/
def chainOwners : Node → List Node
  | ⟨_, .member owner part _⟩ => owner :: chainOwners part
  | _ => []

/-- The names that a chain is spelled with in the source text: every object along it is a path, and
the chain ends in an identifier that is not computed. -/
def spelledNames? (chain : Node) : Option (List String) :=
  match chain.chainTail?, chain.chainOwners.mapM pathNames? with
  | some tail, some names => some (names.flatten ++ [tail])
  | _, _ => none

/-- The objects of a chain are the texts of its owners. -/
theorem chainObjects_eq (chain : Node) :
    chain.chainObjects = chain.chainOwners.map canonicalText := by
  fun_induction chainOwners with
  | case1 span owner part computed ih =>
      rw [chainObjects, ih, List.map_cons]
  | case2 node other =>
      unfold chainObjects
      split
      · exact absurd rfl (other _ _ _ _)
      · rfl

end Node

/-! ### The objects along a chain after the walk -/

namespace Rules

variable (rules : Rules)

/-- Inside a chain nothing is replaced but the objects along it. -/
theorem value_visit_chain {part : Node} (goesOn : part.isMember) :
    (rules.visit .chain part).value = rules.rebuilt .chain part := by
  obtain ⟨span, kind⟩ := part
  cases kind with
  | member owner part computed =>
      rw [value_visit]
      rfl
  | _ => simp [Node.isMember] at goesOn

/-- The owners of a chain after the walk are what became of its owners. -/
theorem chainOwners_rebuilt {chain : Node} {tail : String} (ends : chain.chainTail? = some tail)
    {position : Position} (walked : position = .read ∨ position = .chain) :
    (rules.rebuilt position chain).chainOwners =
      chain.chainOwners.map fun owner => (rules.visit .read owner).value := by
  have ne : position ≠ .kept := by
    rcases walked with rfl | rfl <;> decide
  fun_induction Node.chainTail? generalizing position with
  | case1 span owner inner name => cases ends
  | case2 span owner inner name computed bare =>
      have kept : position.memberProperty computed ⟨inner, .identifier name⟩ = .kept := by
        rcases walked with rfl | rfl <;>
          simp [Position.memberProperty, Node.isMember, Node.identifier?, Position.key, bare]
      rw [rebuilt_member rules ne, kept, visit_kept]
      rfl
  | case3 span owner part computed other ih =>
      have goesOn : part.isMember := by
        obtain ⟨inner, kind⟩ := part
        cases kind <;> first | rfl | cases ends
      have chain : position.memberProperty computed part = .chain := by
        rcases walked with rfl | rfl <;> simp [Position.memberProperty, goesOn]
      rw [rebuilt_member rules ne, chain, value_visit_chain rules goesOn, Node.chainOwners,
        Node.chainOwners, ih ends (.inr rfl) (by decide), List.map_cons]
  | case4 => cases ends

end Rules

/-! ### Texts of paths -/

/-- The canonical text of a path is the path as it is spelled, unless the first name is empty. -/
theorem Node.canonicalText_path {node : Node} {names : List String}
    (path : node.pathNames? = some names) (named : names.head? ≠ some "") :
    node.canonicalText = Text.join "." names ∧ names ≠ [] ∧ node.canonicalText ≠ "" := by
  fun_induction pathNames? generalizing names with
  | case1 span name =>
      obtain rfl := Option.some.inj path
      exact ⟨rfl, List.cons_ne_nil name [], fun empty => named (congrArg some empty)⟩
  | case2 span =>
      obtain rfl := Option.some.inj path
      exact ⟨rfl, List.cons_ne_nil "this" [], (by decide : "this" ≠ "")⟩
  | case3 span owner inner name ih =>
      obtain ⟨front, found, rfl⟩ := Option.map_eq_some_iff.mp path
      have first : front.head? ≠ some "" := fun empty => named (by simp [empty])
      obtain ⟨text, some_front, ne⟩ := ih found first
      have whole : canonicalText ⟨span, .member owner ⟨inner, .identifier name⟩ false⟩ =
          owner.canonicalText ++ "." ++ name := by
        simp [canonicalText, kindText, memberText, isMember, ne]
      refine ⟨?_, by simp, ?_⟩
      · rw [whole, Text.join_append some_front (List.cons_ne_nil name []), text]
        rfl
      · simp [whole]
  | case4 => cases path

/-! ### Objects that a dotted name can stand for -/

/-- Characters that only texts of compound syntax have: a space, what opens brackets, a slash, a
semicolon and a backtick. -/
def Text.delimiters : List Char := [' ', '(', '[', '\x7b', '/', ';', '\x60']

/-- A text that looks like a dotted name: none of the delimiters, and never two dots in a row. -/
def Text.IsDotted (text : String) : Prop :=
  (∀ c ∈ text.toList, c ∉ delimiters) ∧ ¬ ['.', '.'] <:+: text.toList

namespace Text.IsDotted

variable {text other : String}

/-- A stretch of a dotted text is dotted. -/
theorem of_infix (dotted : IsDotted text) (inside : other.toList <:+: text.toList) :
    IsDotted other :=
  ⟨fun c mem => dotted.1 c (inside.subset mem), fun dots => dotted.2 (dots.trans inside)⟩

theorem left (dotted : IsDotted (text ++ other)) : IsDotted text := by
  apply dotted.of_infix
  rw [String.toList_append]
  exact (List.prefix_append text.toList other.toList).isInfix

theorem right (dotted : IsDotted (text ++ other)) : IsDotted other := by
  apply dotted.of_infix
  rw [String.toList_append]
  exact (List.suffix_append text.toList other.toList).isInfix

/-- No delimiter is in a dotted text. -/
theorem not_mem (dotted : IsDotted text) {c : Char} (delimiter : c ∈ delimiters) :
    c ∉ text.toList :=
  fun mem => dotted.1 c mem delimiter

end Text.IsDotted

/-- The delimiter that every text of a kind has, for the kinds that have one. -/
def Kind.delimiter? : Kind Node → Option Char
  | .expressionStatement _ => some ';'
  | .block _ => some '\x7b'
  | .declaration .. => some ' '
  | .declarator _ (some _) => some ' '
  | .functionExpression .. => some ' '
  | .method .object .. => some '('
  | .leaf (.regExp ..) => some '/'
  | .template .. => some '\x60'
  | .call .. => some '('
  | .construct .. => some ' '
  | .operation .. => some ' '
  | .conditional .. => some ' '
  | .assignmentPattern .. => some ' '
  | .array _ => some '['
  | .object _ => some '\x7b'
  | .property .. => some ' '
  | _ => none

namespace Node

/-- Kinds without a text of their own. -/
def isSilent (node : Node) : Bool :=
  match node.kind with
  | .program _ => true
  | .returnStatement _ => true
  | .ifStatement .. => true
  | .functionDeclaration .. => true
  | .arrowFunction .. => true
  | .classDeclaration .. => true
  | .method (.classBody _) .. => true
  | .assignment .. => true
  | _ => false

/-- Nodes that can look like a dotted name: a name or a literal, nothing at all, a member whose
property is no member, whether it is computed or not, and operators or tags in front of those or
after them. -/
inductive Flat : Node → Prop where
  | identifier {span : Span} {name : String} : Flat ⟨span, .identifier name⟩
  | leaf {span : Span} {content : Leaf} (plain : ∀ pattern flags, content ≠ .regExp pattern flags) :
      Flat ⟨span, .leaf content⟩
  | silent {node : Node} (silent : node.isSilent) : Flat node
  | member {span : Span} {owner part : Node} {computed : Bool} (owners : Flat owner)
      (parts : Flat part) (ends : ¬ part.isMember) : Flat ⟨span, .member owner part computed⟩
  | unary {span : Span} {operator : String} {leading : Bool} {argument : Node}
      (arguments : Flat argument) : Flat ⟨span, .unary operator leading argument⟩
  | update {span : Span} {operator : String} {leading : Bool} {argument : Node}
      (arguments : Flat argument) : Flat ⟨span, .update operator leading argument⟩
  | tagged {span : Span} {tag quasi : Node} (tags : Flat tag) (quasis : Flat quasi) :
      Flat ⟨span, .taggedTemplate tag quasi⟩
  | declarator {span : Span} {target : Node} (targets : Flat target) :
      Flat ⟨span, .declarator target none⟩

/-- The delimiter of a kind of syntax is in its text. -/
theorem delimiter?_eq_some {kind : Kind Node} {c : Char} (eq : kind.delimiter? = some c) :
    c ∈ Text.delimiters ∧ c ∈ (kindText kind).toList := by
  cases kind with
  | declarator target init =>
      cases init <;> simp [Kind.delimiter?] at eq
      subst eq
      simp [kindText, Text.delimiters]
  | method home form key computed params body =>
      cases home <;> simp [Kind.delimiter?] at eq
      subst eq
      simp [kindText, Text.delimiters]
  | leaf content =>
      cases content <;> simp [Kind.delimiter?] at eq
      subst eq
      simp [kindText, Leaf.canonicalText, Text.delimiters]
  | property key value computed =>
      simp [Kind.delimiter?] at eq
      subst eq
      cases computed <;> simp [kindText, Text.delimiters]
  | _ =>
      simp [Kind.delimiter?] at eq
      try
        subst eq
        simp [kindText, templateText, Text.delimiters]

open Text in
/-- A node whose canonical text looks like a dotted name is flat. -/
theorem flat_of_isDotted (node : Node) (dotted : IsDotted node.canonicalText) : Flat node := by
  induction node using childInduction with
  | step node ih =>
      obtain ⟨span, kind⟩ := node
      rw [canonicalText] at dotted
      have bare : kind.delimiter? = none := by
        refine Option.eq_none_iff_forall_ne_some.mpr fun c eq => ?_
        obtain ⟨delimiter, mem⟩ := delimiter?_eq_some eq
        exact dotted.not_mem delimiter mem
      cases kind with
      | identifier name => exact .identifier
      | leaf content =>
          refine .leaf fun pattern flags eq => ?_
          rw [eq] at bare
          cases bare
      | member owner part computed =>
          rw [kindText, memberText] at dotted
          split at dotted
          · exact absurd (by simp) (dotted.not_mem (c := '[') (by decide))
          · rename_i ends
            split at dotted
            · rename_i empty
              have texts : owner.canonicalText = "" := by simpa using empty
              have owners : Flat owner :=
                ih owner (by simp [Kind.children]) (dotted.of_infix (by simp [texts]))
              have parts : Flat part := ih part (by simp [Kind.children]) dotted
              exact .member owners parts ends
            · have owners : Flat owner := ih owner (by simp [Kind.children]) dotted.left.left
              have parts : Flat part := ih part (by simp [Kind.children]) dotted.right
              exact .member owners parts ends
      | unary operator leading argument =>
          refine .unary (ih argument (by simp [Kind.children]) ?_)
          cases leading with
          | false => exact dotted.left
          | true => exact dotted.right
      | update operator leading argument =>
          refine .update (ih argument (by simp [Kind.children]) ?_)
          cases leading with
          | false => exact dotted.left
          | true => exact dotted.right
      | taggedTemplate tag quasi =>
          have tags : Flat tag := ih tag (by simp [Kind.children]) dotted.left
          have quasis : Flat quasi := ih quasi (by simp [Kind.children]) dotted.right
          exact .tagged tags quasis
      | declarator target init =>
          cases init with
          | none => exact .declarator (ih target (by simp [Kind.children]) dotted)
          | some init => cases bare
      | spread argument =>
          have dots : IsDotted "..." := dotted.left
          exact absurd ⟨[], ['.'], rfl⟩ dots.2
      | method home form key computed params body =>
          cases home with
          | object => cases bare
          | classBody isStatic => exact .silent rfl
      | _ => first | exact .silent rfl | cases bare

end Node

/-! ### Replaced chains -/

section Replaced

variable {rules : Rules} {node : Node} {name tail : String}

/-- A replaced member is a chain, and its name is read off the objects along it after the walk. -/
theorem Rules.replacement?_member {position : Position} {literal : Node} (isMember : node.isMember)
    (replaced : rules.replacement? position node = some (name, literal)) :
    ∃ tail, node.chainTail? = some tail ∧
      name = Text.join "." ((node.chainOwners.map fun owner =>
        (rules.visit .read owner).value.canonicalText) ++ [tail]) := by
  rcases rules.replacement?_cases replaced with
    ⟨span, rfl, -⟩ | ⟨span, owner, part, computed, tail, rfl, -, ends, rfl, -⟩ |
      ⟨span, callee, rfl, -⟩ | ⟨span, callee, argument, package, rfl, -⟩
  · cases isMember
  · refine ⟨tail, ends, ?_⟩
    rw [Node.chainName, Node.chainObjects_eq, rules.chainOwners_rebuilt ends (.inl rfl),
      List.map_map]
    rfl
  · cases isMember
  · cases isMember

/-- Objects that are paths spell a chain by their canonical texts. -/
theorem Node.spelledNames?_of_paths (ends : node.chainTail? = some tail)
    (paths : ∀ owner ∈ node.chainOwners, ∃ names, owner.pathNames? = some names ∧ "" ∉ names) :
    ∃ names, node.spelledNames? = some names ∧
      Text.join "." (node.chainOwners.map canonicalText ++ [tail]) = Text.join "." names := by
  have collected : ∀ owners : List Node,
      (∀ owner ∈ owners, ∃ names, owner.pathNames? = some names ∧ "" ∉ names) →
        ∃ lists, owners.mapM pathNames? = some lists ∧ (∀ list ∈ lists, list ≠ []) ∧
          owners.map canonicalText = lists.map (Text.join ".") := by
    intro owners each
    induction owners with
    | nil => exact ⟨[], rfl, by simp, rfl⟩
    | cons owner rest ih =>
        obtain ⟨names, path, named⟩ := each owner List.mem_cons_self
        obtain ⟨text, filled, -⟩ := canonicalText_path path fun first =>
          named (List.mem_of_head? first)
        obtain ⟨lists, found, all, texts⟩ :=
          ih fun other mem => each other (List.mem_cons_of_mem owner mem)
        refine ⟨names :: lists, ?_, ?_, ?_⟩
        · simp [List.mapM_cons, path, found]
        · exact List.forall_mem_cons.mpr ⟨filled, all⟩
        · rw [List.map_cons, List.map_cons, text, texts]
  obtain ⟨lists, found, filled, texts⟩ := collected node.chainOwners paths
  refine ⟨lists.flatten ++ [tail], ?_, ?_⟩
  · simp [spelledNames?, ends, found]
  · rw [texts, Text.join_flatten filled]

/-- What a name says about the member chain that is replaced under it. The chain ends in an identifier
that is not computed, and the name is made of the objects along it as the walk leaves them. A name
that looks like a dotted name leaves only flat objects to choose from. Objects that are paths and
that the walk leaves as they are spell the name. -/
theorem member_replaced_under {root : Node} (isMember : node.isMember)
    (replaced : rules.Replaces .read root node name) :
    ∃ tail, node.chainTail? = some tail ∧
      name = Text.join "." ((node.chainOwners.map fun owner =>
        (rules.visit .read owner).value.canonicalText) ++ [tail]) ∧
      (Text.IsDotted name →
        ∀ owner ∈ node.chainOwners, Node.Flat (rules.visit .read owner).value) ∧
      ((∀ owner ∈ node.chainOwners, (rules.visit .read owner).value = owner ∧
          ∃ names, owner.pathNames? = some names ∧ "" ∉ names) →
        ∃ names, node.spelledNames? = some names ∧ Text.join "." names = name) := by
  obtain ⟨position, literal, -, replaced⟩ := replaced
  obtain ⟨tail, ends, eq⟩ := Rules.replacement?_member isMember replaced
  refine ⟨tail, ends, eq, ?_, ?_⟩
  · intro dotted owner mem
    refine Node.flat_of_isDotted _ (dotted.of_infix ?_)
    rw [eq]
    apply Text.infix_join
    exact List.mem_append_left [tail] (List.mem_map.mpr ⟨owner, mem, rfl⟩)
  · intro stays
    obtain ⟨names, spelled, text⟩ :=
      Node.spelledNames?_of_paths ends fun owner mem => (stays owner mem).2
    refine ⟨names, spelled, ?_⟩
    have same : (node.chainOwners.map fun owner => (rules.visit .read owner).value.canonicalText) =
        node.chainOwners.map Node.canonicalText :=
      List.map_congr_left fun owner mem => congrArg Node.canonicalText (stays owner mem).1
    rw [eq, same, text]

end Replaced

namespace Sample

/-- The source tree of `a[b].c`. -/
def computedOwner : Node :=
  ⟨⟨0, 6⟩, .member
    ⟨⟨0, 4⟩, .member ⟨⟨0, 1⟩, .identifier "a"⟩ ⟨⟨2, 3⟩, .identifier "b"⟩ true⟩
    ⟨⟨5, 6⟩, .identifier "c"⟩ false⟩

/-- The source tree of `x[a.b]`. -/
def computedChain : Node :=
  ⟨⟨0, 6⟩, .member ⟨⟨0, 1⟩, .identifier "x"⟩
    ⟨⟨2, 5⟩, .member ⟨⟨2, 3⟩, .identifier "a"⟩ ⟨⟨4, 5⟩, .identifier "b"⟩ false⟩ true⟩

/-- A single define. -/
def rulesFor (name : String) : Rules :=
  .ofSettings (Settings.initial.withDefine name (.bool true)) (.outside "") 0 []

theorem replaces_computedOwner :
    (rulesFor "a.b.c").Replaces .read computedOwner computedOwner "a.b.c" :=
  ⟨.read, Node.boolean true, .here, rfl⟩

theorem replaces_computedChain :
    (rulesFor "x.a.b").Replaces .read computedChain computedChain "x.a.b" :=
  ⟨.read, Node.boolean true, .here, rfl⟩

end Sample

/-- In `x[a.b]` both objects are paths, and its name `x.a.b` is how it is spelled. -/
theorem computedChain_replaced_under :
    Sample.computedChain.isMember ∧
      (Sample.rulesFor "x.a.b").Replaces .read Sample.computedChain Sample.computedChain "x.a.b" ∧
      ∃ names, Sample.computedChain.spelledNames? = some names ∧
        Text.join "." names = "x.a.b" := by
  obtain ⟨-, -, -, -, spelled⟩ :=
    member_replaced_under (by rfl : Sample.computedChain.isMember) Sample.replaces_computedChain
  refine ⟨rfl, Sample.replaces_computedChain, spelled ?_⟩
  intro owner mem
  simp only [Sample.computedChain, Node.chainOwners, List.mem_cons, List.not_mem_nil,
    or_false] at mem
  rcases mem with rfl | rfl
  · exact ⟨rfl, ["x"], rfl, by decide⟩
  · exact ⟨rfl, ["a"], rfl, by decide⟩

/-- A name alone does not determine the spelling: `a[b].c` is taken for `a.b.c`. -/
theorem replaced_not_spelled :
    ¬ ∀ (settings : Settings) (constants : Constants) (clock : Int)
      (versions : List (String × Option String)) (root node : Node) (name : String),
      node.isMember →
        (Rules.ofSettings settings constants clock versions).Replaces .read root node name →
        ∃ names, node.spelledNames? = some names ∧ Text.join "." names = name := by
  intro spelled
  obtain ⟨names, found, -⟩ := spelled _ _ _ _ _ Sample.computedOwner "a.b.c" rfl
    Sample.replaces_computedOwner
  cases found

end Imprint
