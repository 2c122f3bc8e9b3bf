/-
Module: Imprint.Proofs.NodeFields
Purpose: Trees that are written as JSON values and read again. Every field of a node is found again under
  its key, and what is left out is read as absent.
Main exports: Span.defaulted?_members, Node.members, Node.ComesBack, Node.kind?_kindMembers,
  Node.comesBack
-/
import Imprint.Proofs.Children
import Imprint.Node.Printer
import Imprint.Node.Reader

namespace Imprint

/-! ### Members of an object -/

namespace Json

variable {α β : Type} {key : String}

/-- A member whose key comes up nowhere else is the only one with it. -/
theorem only?_cons_self {value : α} {rest : List (String × α)}
    (absent : ∀ member ∈ rest, member.1 ≠ key) :
    only? key ((key, value) :: rest) = some (some value) := by
  unfold only?
  rw [List.filter_cons_of_pos (by simp), List.filter_eq_nil_iff.mpr (by simpa using absent)]

/-- A member with another key makes no difference. -/
theorem only?_cons_of_ne {other : String} (ne : other ≠ key) (value : α)
    (rest : List (String × α)) : only? key ((other, value) :: rest) = only? key rest := by
  simp [only?, ne]

/-- Members without the key make no difference behind the others. -/
theorem only?_append_left {rest : List (String × α)} (absent : ∀ member ∈ rest, member.1 ≠ key)
    (front : List (String × α)) : only? key (front ++ rest) = only? key front := by
  unfold only?
  rw [List.filter_append, (List.filter_eq_nil_iff (l := rest)).mpr (by simpa using absent),
    List.append_nil]

/-- Nor do they in front of them. -/
theorem only?_append_right {front : List (String × α)} (absent : ∀ member ∈ front, member.1 ≠ key)
    (rest : List (String × α)) : only? key (front ++ rest) = only? key rest := by
  unfold only?
  rw [List.filter_append, (List.filter_eq_nil_iff (l := front)).mpr (by simpa using absent),
    List.nil_append]

/-- The only member with a key is found among changed members as the changed one. -/
theorem only?_map (f : α → β) (members : List (String × α)) :
    only? key (members.map fun member => (member.1, f member.2)) =
      (only? key members).map (Option.map f) := by
  simp only [only?, List.filter_map, Function.comp_def]
  generalize List.filter _ members = kept
  rcases kept with _ | ⟨first, _ | ⟨second, rest⟩⟩ <;> rfl

/-- Reading a required member after a change is reading it with the change. -/
theorem required?_map (f : α → β) {γ : Type} (read : β → Option γ) (members : List (String × α)) :
    required? key read (members.map fun member => (member.1, f member.2)) =
      required? key (fun value => read (f value)) members := by
  rw [required?, required?, only?_map]
  rcases only? key members with _ | _ | value <;> rfl

/-- The same for a member that can be left out. -/
theorem defaulted?_map (f : α → β) {γ : Type} (default : γ) (read : β → Option γ)
    (members : List (String × α)) :
    defaulted? key default read (members.map fun member => (member.1, f member.2)) =
      defaulted? key default (fun value => read (f value)) members := by
  rw [defaulted?, defaulted?, only?_map]
  rcases only? key members with _ | _ | value <;> rfl

end Json

/-! ### Spans and template stretches -/

theorem Span.offset?_ofNat (offset : UInt64) : Span.offset? (Json.ofNat offset.toNat) = some offset := by
  have bound : offset.toNat < UInt64.size := offset.toNat_lt
  simp [Json.ofNat, Span.offset?, bound]

/-- A span comes back, and one that was left out is synthetic. -/
theorem Span.defaulted?_members (span : Span) :
    Json.defaulted? "span" Span.synthetic Span.ofJson? span.members = some span := by
  by_cases synthetic : span = Span.synthetic
  · rw [members, if_pos synthetic, synthetic]
    rfl
  · rw [members, if_neg synthetic]
    show Span.ofJson? (.object [("start", .ofNat span.start.toNat), ("end", .ofNat span.stop.toNat)]) =
      some span
    simp [ofJson?, Json.required?, Json.only?, offset?_ofNat]

/-- The only member that a span is written to. -/
theorem Span.key_of_mem_members {span : Span} {member : String × Json} (mem : member ∈ span.members) :
    member.1 = "span" := by
  unfold members at mem
  split at mem
  · cases mem
  · rw [List.mem_singleton.mp mem]

/-- A piece of a template comes back from its JSON. -/
theorem Quasi.ofJson?_toJson (quasi : Quasi) : Quasi.ofJson? quasi.toJson = some quasi := by
  have absent : ∀ member ∈ quasi.span.members, member.1 ≠ "raw" := by
    intro member mem
    rw [Span.key_of_mem_members mem]
    decide
  have raw : Json.required? "raw" Json.text? (("raw", .text quasi.raw) :: quasi.span.members) =
      some quasi.raw := by
    rw [Json.required?, Json.only?_cons_self absent]
    rfl
  have span : Json.defaulted? "span" Span.synthetic Span.ofJson?
      (("raw", .text quasi.raw) :: quasi.span.members) = some quasi.span := by
    rw [Json.defaulted?, Json.only?_cons_of_ne (by decide)]
    exact quasi.span.defaulted?_members
  rw [toJson, ofJson?, raw, Option.bind_eq_bind, Option.bind_some, span]
  rfl

namespace Node

/-! ### Fields -/

theorem json_readField (json : Json) : (readField json).json = json := by
  cases json <;> simp [readField]

/-- The members of an object are read one by one. -/
theorem readMembers_eq_map (members : List (String × Json)) :
    readMembers members = members.map fun member => (member.1, readField member.2) := by
  induction members with
  | nil => rw [readMembers, List.map_nil]
  | cons member rest ih => rw [readMembers, ih, List.map_cons]

/-- The type, the span and the kind of the node that members describe. -/
theorem toNode?_readMembers (members : List (String × Json)) :
    (readMembers members).toNode? =
      (Json.required? "type" Tag.ofJson? members).bind fun tag =>
        (Json.defaulted? "span" Span.synthetic Span.ofJson? members).bind fun span =>
          ((readMembers members).kind? tag).bind fun kind => some ⟨span, kind⟩ := by
  have type : Json.required? "type" (fun field => Tag.ofJson? field.json) (readMembers members) =
      Json.required? "type" Tag.ofJson? members := by
    rw [readMembers_eq_map, Json.required?_map]
    simp only [json_readField]
  have span : Json.defaulted? "span" Span.synthetic (fun field => Span.ofJson? field.json)
      (readMembers members) = Json.defaulted? "span" Span.synthetic Span.ofJson? members := by
    rw [readMembers_eq_map, Json.defaulted?_map]
    simp only [json_readField]
  rw [Fields.toNode?, type, span]
  rfl

/-- The kind depends on nothing but the members of its own. -/
theorem kind?_congr {fields others : Fields}
    (agree : ∀ key, key ≠ "type" → key ≠ "span" → Json.only? key fields = Json.only? key others)
    (tag : Tag) : fields.kind? tag = others.kind? tag := by
  cases tag <;>
    simp [Fields.kind?, Fields.node?, Fields.nodes?, Fields.child?, Fields.text?, Fields.flag?,
      Fields.methodForm?, Json.required?, Json.defaulted?, agree]

theorem forall_optionMember {key : String} {child : Option Node} {p : String × Json → Prop} :
    (∀ member ∈ optionMember key child, p member) ↔ ∀ node ∈ child, p (key, node.toJson) := by
  cases child <;> simp [optionMember]

/-- A kind has no member for the type or the span. -/
theorem key_of_mem_kindMembers {kind : Kind Node} :
    ∀ member ∈ kindMembers kind, member.1 ≠ "type" ∧ member.1 ≠ "span" := by
  cases kind with
  | leaf content => cases content <;> simp [kindMembers, Leaf.members]
  | method home form key computed params body => cases home <;> simp [kindMembers]
  | _ =>
      simp only [kindMembers, List.forall_mem_append, List.forall_mem_cons, forall_optionMember]
      simp

/-! ### Children -/

/-- A node that is read from what is written for it. -/
def ComesBack (node : Node) : Prop := (readField node.toJson).node? = some node

/-- A list of nodes that come back from their JSON comes back. -/
theorem nodes?_listToJson {nodes : List Node} (read : ∀ node ∈ nodes, node.ComesBack) :
    (readField (.array (listToJson nodes))).nodes? = some nodes := by
  rw [readField]
  show (readItems (listToJson nodes)).mapM Field.node? = some nodes
  induction nodes with
  | nil => simp [listToJson, readItems]
  | cons node rest ih =>
      rw [listToJson, readItems, List.mapM_cons, read node List.mem_cons_self,
        ih fun node mem => read node (List.mem_cons_of_mem _ mem)]
      rfl

theorem child?_toJson {node : Node} (read : node.ComesBack) :
    (readField node.toJson).child? = some (some node) := by
  obtain ⟨span, kind⟩ := node
  rw [Field.child?, json_readField, toJson, ← toJson, read]
  rfl

/-- An array comes back when its elements do, and its holes stay where they are. -/
theorem slots?_slotsToJson {slots : List (Option Node)}
    (read : ∀ node ∈ slots.flatMap Option.toList, node.ComesBack) :
    (readField (.array (slotsToJson slots))).slots? = some slots := by
  rw [readField]
  show (readItems (slotsToJson slots)).mapM Field.child? = some slots
  induction slots with
  | nil => simp [slotsToJson, readItems]
  | cons slot rest ih =>
      rw [List.flatMap_cons] at read
      obtain ⟨here, others⟩ := List.forall_mem_append.mp read
      cases slot with
      | none =>
          have hole : (readField .null).child? = some none := by simp [readField, Field.child?]
          rw [slotsToJson, readItems, List.mapM_cons, hole, ih others]
          rfl
      | some node =>
          rw [slotsToJson, readItems, List.mapM_cons,
            child?_toJson (here node (List.mem_singleton_self _)), ih others]
          rfl

/-! ### Kinds -/

/-- One more field is read. -/
theorem read_then {α β : Type} {field : Option α} {value : α} {rest : α → Option β} {result : β}
    (read : field = some value) (others : rest value = some result) :
    field.bind rest = some result := by
  rw [read]
  exact others

theorem quasis?_toJson (quasis : List Quasi) :
    (readField (.array (quasis.map Quasi.toJson))).quasis? = some quasis := by
  rw [Field.quasis?, json_readField]
  show (quasis.map Quasi.toJson).mapM Quasi.ofJson? = some quasis
  induction quasis with
  | nil => rfl
  | cons quasi rest ih =>
      rw [List.map_cons, List.mapM_cons, quasi.ofJson?_toJson, ih]
      rfl

theorem declarationForm_ofJson? (form : DeclarationForm) :
    DeclarationForm.ofJson? (readField (.text form.word)).json = some form := by
  cases form <;> rfl

theorem methodForm_ofJson? (form : MethodForm) :
    MethodForm.ofJson? (readField (.text form.word)).json = some form := by
  cases form <;> rfl

/-- What is written for a leaf is read as that leaf. -/
theorem kind?_leaf (content : Leaf) :
    (readMembers (kindMembers (.leaf content))).kind? (Kind.leaf content : Kind Node).tag =
      some (.leaf content) := by
  cases content with
  | this | null => rfl
  | text value | number value | boolean value | raw value => exact read_then rfl rfl
  | regExp pattern flags => exact read_then rfl (read_then rfl rfl)

/-- What is written for a kind is read as that kind. Texts and flags are read by evaluation; each child
that is written takes a step of its own. -/
theorem kind?_kindMembers (kind : Kind Node) (read : ∀ node ∈ kind.children, node.ComesBack) :
    (readMembers (kindMembers kind)).kind? kind.tag = some kind := by
  cases kind with
  | program body | block body | object properties =>
      exact read_then (nodes?_listToJson read) rfl
  | expressionStatement expression | spread expression =>
      have expression := read expression (List.mem_singleton_self _)
      exact read_then expression rfl
  | returnStatement argument =>
      cases argument with
      | none => exact read_then rfl rfl
      | some argument =>
          have argument := read argument (List.mem_singleton_self _)
          exact read_then (child?_toJson argument) rfl
  | ifStatement test consequent alternate =>
      obtain ⟨test, read⟩ := List.forall_mem_cons.mp read
      obtain ⟨consequent, read⟩ := List.forall_mem_cons.mp read
      cases alternate with
      | none => exact read_then test (read_then consequent (read_then rfl rfl))
      | some alternate =>
          have alternate := read alternate (List.mem_singleton_self _)
          exact read_then test (read_then consequent (read_then (child?_toJson alternate) rfl))
  | declaration form declarators =>
      exact read_then (declarationForm_ofJson? form) (read_then (nodes?_listToJson read) rfl)
  | declarator target init =>
      obtain ⟨target, read⟩ := List.forall_mem_cons.mp read
      cases init with
      | none => exact read_then target (read_then rfl rfl)
      | some init =>
          have init := read init (List.mem_singleton_self _)
          exact read_then target (read_then (child?_toJson init) rfl)
  | functionDeclaration name params body =>
      obtain ⟨name, read⟩ := List.forall_mem_cons.mp read
      obtain ⟨params, body⟩ := List.forall_mem_append.mp read
      have body := body _ (List.mem_singleton_self _)
      exact read_then name (read_then (nodes?_listToJson params) (read_then body rfl))
  | functionExpression name params body =>
      obtain ⟨own, read⟩ := List.forall_mem_append.mp read
      obtain ⟨params, body⟩ := List.forall_mem_append.mp read
      have body := body _ (List.mem_singleton_self _)
      cases name with
      | none => exact read_then (nodes?_listToJson params) (read_then body rfl)
      | some name =>
          have own := own name (List.mem_singleton_self _)
          exact read_then (child?_toJson own)
            (read_then (nodes?_listToJson params) (read_then body rfl))
  | arrowFunction params body =>
      obtain ⟨params, body⟩ := List.forall_mem_append.mp read
      have body := body _ (List.mem_singleton_self _)
      exact read_then (nodes?_listToJson params) (read_then body rfl)
  | classDeclaration name superClass body =>
      obtain ⟨own, read⟩ := List.forall_mem_append.mp read
      obtain ⟨parent, body⟩ := List.forall_mem_append.mp read
      cases name with
      | none =>
          cases superClass with
          | none => exact read_then (nodes?_listToJson body) rfl
          | some superClass =>
              have parent := parent superClass (List.mem_singleton_self _)
              exact read_then (child?_toJson parent) (read_then (nodes?_listToJson body) rfl)
      | some name =>
          have own := own name (List.mem_singleton_self _)
          cases superClass with
          | none =>
              exact read_then (child?_toJson own)
                (read_then rfl (read_then (nodes?_listToJson body) rfl))
          | some superClass =>
              have parent := parent superClass (List.mem_singleton_self _)
              exact read_then (child?_toJson own)
                (read_then (child?_toJson parent) (read_then (nodes?_listToJson body) rfl))
  | method home form key computed params body =>
      obtain ⟨key, read⟩ := List.forall_mem_cons.mp read
      obtain ⟨params, body⟩ := List.forall_mem_append.mp read
      have body := body _ (List.mem_singleton_self _)
      cases home with
      | object =>
          exact read_then (methodForm_ofJson? form) (read_then key
            (read_then rfl (read_then (nodes?_listToJson params) (read_then body rfl))))
      | classBody isStatic =>
          exact read_then (methodForm_ofJson? form) (read_then rfl (read_then key
            (read_then rfl (read_then (nodes?_listToJson params) (read_then body rfl)))))
  | identifier name => exact read_then rfl rfl
  | leaf content => exact kind?_leaf content
  | template quasis expressions =>
      exact read_then (quasis?_toJson quasis) (read_then (nodes?_listToJson read) rfl)
  | taggedTemplate first second | assignmentPattern first second =>
      obtain ⟨first, read⟩ := List.forall_mem_cons.mp read
      have second := read _ (List.mem_singleton_self _)
      exact read_then first (read_then second rfl)
  | member first second computed | property first second computed =>
      obtain ⟨first, read⟩ := List.forall_mem_cons.mp read
      have second := read _ (List.mem_singleton_self _)
      exact read_then first (read_then second (read_then rfl rfl))
  | call callee arguments | construct callee arguments =>
      obtain ⟨callee, arguments⟩ := List.forall_mem_cons.mp read
      exact read_then callee (read_then (nodes?_listToJson arguments) rfl)
  | unary operator leading argument | update operator leading argument =>
      have argument := read argument (List.mem_singleton_self _)
      exact read_then argument rfl
  | operation family operator left right =>
      obtain ⟨left, read⟩ := List.forall_mem_cons.mp read
      have right := read _ (List.mem_singleton_self _)
      cases family <;> exact read_then left (read_then right rfl)
  | assignment operator left right =>
      obtain ⟨left, read⟩ := List.forall_mem_cons.mp read
      have right := read _ (List.mem_singleton_self _)
      exact read_then left (read_then right rfl)
  | conditional test consequent alternate =>
      obtain ⟨test, read⟩ := List.forall_mem_cons.mp read
      obtain ⟨consequent, read⟩ := List.forall_mem_cons.mp read
      have alternate := read _ (List.mem_singleton_self _)
      exact read_then test (read_then consequent (read_then alternate rfl))
  | array elements => exact read_then (slots?_slotsToJson read) rfl

/-! ### Trees -/

/-- The members that a node is written to. -/
def members (node : Node) : List (String × Json) :=
  ("type", .text node.kind.tag.name) :: (kindMembers node.kind ++ node.span.members)

/-- A node is written as an object of its members. -/
theorem toJson_eq (node : Node) : node.toJson = .object node.members := by
  obtain ⟨span, kind⟩ := node
  rw [toJson]
  rfl

/-- The type that is written with a node is the tag of its kind. -/
theorem required?_type (node : Node) :
    Json.required? "type" Tag.ofJson? node.members = some node.kind.tag := by
  have absent : ∀ member ∈ kindMembers node.kind ++ node.span.members, member.1 ≠ "type" := by
    intro member mem
    rcases List.mem_append.mp mem with mem | mem
    · exact (key_of_mem_kindMembers member mem).1
    · rw [Span.key_of_mem_members mem]
      decide
  rw [members, Json.required?, Json.only?_cons_self absent]
  exact Tag.ofName?_name node.kind.tag

/-- The span that is written with a node is read back, also when it is left out. -/
theorem defaulted?_span (node : Node) :
    Json.defaulted? "span" Span.synthetic Span.ofJson? node.members = some node.span := by
  have absent : ∀ member ∈ kindMembers node.kind, member.1 ≠ "span" :=
    fun member mem => (key_of_mem_kindMembers member mem).2
  rw [members, Json.defaulted?, Json.only?_cons_of_ne (by decide), Json.only?_append_right absent]
  exact node.span.defaulted?_members

/-- Neither the type nor the span has a say in what the rest of the members means. -/
theorem kind?_members (node : Node) (tag : Tag) :
    (readMembers node.members).kind? tag = (readMembers (kindMembers node.kind)).kind? tag := by
  apply kind?_congr
  intro key type span
  have absent : ∀ member ∈ node.span.members, member.1 ≠ key := by
    intro member mem
    rw [Span.key_of_mem_members mem]
    exact span.symm
  rw [readMembers_eq_map, readMembers_eq_map, Json.only?_map, Json.only?_map, members,
    Json.only?_cons_of_ne type.symm, Json.only?_append_left absent]

/-- Every node is read from what is written for it. -/
theorem comesBack (node : Node) : node.ComesBack := by
  induction node using childInduction with
  | step node read =>
      rw [ComesBack, toJson_eq, readField]
      show (readMembers node.members).toNode? = some node
      rw [toNode?_readMembers, required?_type, Option.bind_some, defaulted?_span, Option.bind_some,
        kind?_members, kind?_kindMembers node.kind read, Option.bind_some]
      obtain ⟨span, kind⟩ := node
      rfl

end Node

end Imprint
