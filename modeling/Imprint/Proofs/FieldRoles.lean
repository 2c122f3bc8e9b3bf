/-
Module: Imprint.Proofs.FieldRoles
Purpose: Which fields a type of node has and what each of them is read as: a node, a list of nodes, a
  span, stretches of a template, or plain data. Two JSON values agree in a role when they are read alike
  in it, and a node depends on nothing but how its fields are read in their roles.
Main exports: Role, Tag.fields, Role.fields, Role.Agrees, Role.AgreesAt, Node.kind?_agrees,
  Role.agrees_of_agreesAt
-/
import Imprint.Proofs.NodeFields

namespace Imprint

/-! ### Fields and their roles -/

/-- What a JSON value is read as. -/
inductive Role where
  | node
  | nodes
  | span
  | quasi
  | quasis
  | plain
deriving DecidableEq

/-- The fields of a type, besides the type and the span. -/
def Tag.fields : Tag → List (String × Role)
  | .program | .block => [("body", .nodes)]
  | .expressionStatement => [("expression", .node)]
  | .returnStatement | .spread => [("argument", .node)]
  | .ifStatement | .conditional =>
      [("test", .node), ("consequent", .node), ("alternate", .node)]
  | .declaration => [("kind", .plain), ("declarations", .nodes)]
  | .declarator => [("id", .node), ("init", .node)]
  | .functionDeclaration | .functionExpression =>
      [("id", .node), ("params", .nodes), ("body", .node)]
  | .arrowFunction => [("params", .nodes), ("body", .node)]
  | .classDeclaration => [("id", .node), ("superClass", .node), ("body", .nodes)]
  | .classMethod =>
      [("kind", .plain), ("key", .node), ("computed", .plain), ("isStatic", .plain),
        ("params", .nodes), ("body", .node)]
  | .identifier => [("name", .plain)]
  | .this | .null => []
  | .string | .number | .boolean => [("value", .plain)]
  | .regExp => [("pattern", .plain), ("flags", .plain)]
  | .template => [("quasis", .quasis), ("expressions", .nodes)]
  | .taggedTemplate => [("tag", .node), ("quasi", .node)]
  | .member => [("object", .node), ("property", .node), ("computed", .plain)]
  | .call | .construct => [("callee", .node), ("arguments", .nodes)]
  | .unary | .update => [("operator", .plain), ("prefix", .plain), ("argument", .node)]
  | .binary | .logical | .assignment =>
      [("operator", .plain), ("left", .node), ("right", .node)]
  | .assignmentPattern => [("left", .node), ("right", .node)]
  | .array => [("elements", .nodes)]
  | .object => [("properties", .nodes)]
  | .property => [("key", .node), ("value", .node), ("computed", .plain)]
  | .objectMethod =>
      [("kind", .plain), ("key", .node), ("computed", .plain), ("params", .nodes),
        ("body", .node)]
  | .raw => [("source", .plain)]

namespace Role

/-- The fields of an object in a role. Those of a node depend on its type; a node without one has none
but the type and the span. -/
def fields : Role → Option Tag → List (String × Role)
  | .node, tag => ("type", .plain) :: ("span", .span) :: (tag.map Tag.fields).getD []
  | .span, _ => [("start", .plain), ("end", .plain)]
  | .quasi, _ => [("raw", .plain), ("span", .span)]
  | _, _ => []

/-- The role of the member with a key: plain if it is no field. -/
def member (role : Role) (tag : Option Tag) (key : String) : Role :=
  ((role.fields tag).lookup key).getD .plain

/-- The role of an item of an array: template stretches are also written as arrays, with the span in
the second place. -/
def item : Role → Nat → Role
  | .nodes, _ => .node
  | .quasis, _ => .quasi
  | .quasi, 1 => .span
  | _, _ => .plain

/-- The role of an object that may have members that are no fields. -/
def isRecord : Role → Bool
  | .node | .span | .quasi => true
  | _ => false

/-- No field is mentioned twice. -/
theorem member_of_mem_fields {role : Role} {tag : Option Tag} {field : String × Role}
    (mem : field ∈ role.fields tag) : role.member tag field.1 = field.2 := by
  have unique : ∀ field ∈ role.fields tag, role.member tag field.1 = field.2 := by
    cases role with
    | node =>
        rcases tag with _ | tag
        · decide
        · cases tag <;> decide
    | span | quasi =>
        intro field mem
        rcases List.mem_pair.mp mem with rfl | rfl <;> rfl
    | nodes | quasis | plain =>
        intro field mem
        cases mem
  exact unique field mem

end Role

/-! ### Agreement -/

/-- Two plain values that no field tells apart: they are the same but for the items of an array and for
the members of an object that spells no word. -/
inductive Json.Plainly : Json → Json → Prop where
  | same (value : Json) : Plainly value value
  | arrays (items others : List Json) : Plainly (.array items) (.array others)
  | objects {members others : List (String × Json)} (here : members ≠ []) (there : others ≠ [])
      (word : Json.word? (.object members) = Json.word? (.object others)) :
      Plainly (.object members) (.object others)

namespace Json.Plainly

variable {value other : Json}

/-- Plainness can be passed on from one value to the next. -/
theorem trans {third : Json} (first : Plainly value other) (second : Plainly other third) :
    Plainly value third := by
  cases first with
  | same => exact second
  | arrays items others =>
      cases second with
      | same => exact .arrays _ _
      | arrays => exact .arrays _ _
  | objects here there word =>
      cases second with
      | same => exact .objects here there word
      | objects _ third further => exact .objects here third (word.trans further)

theorem text?_eq (plainly : Plainly value other) : value.text? = other.text? := by
  cases plainly <;> rfl

theorem bool?_eq (plainly : Plainly value other) : value.bool? = other.bool? := by
  cases plainly <;> rfl

theorem real?_eq (plainly : Plainly value other) : value.real? = other.real? := by
  cases plainly <;> rfl

theorem word?_eq (plainly : Plainly value other) : value.word? = other.word? := by
  cases plainly with
  | same => rfl
  | arrays => rfl
  | objects _ _ word => exact word

theorem offset?_eq (plainly : Plainly value other) : Span.offset? value = Span.offset? other := by
  cases plainly <;> rfl

theorem declarationForm?_eq (plainly : Plainly value other) :
    DeclarationForm.ofJson? value = DeclarationForm.ofJson? other := by
  rw [DeclarationForm.ofJson?, DeclarationForm.ofJson?, plainly.word?_eq]

theorem methodForm?_eq (plainly : Plainly value other) :
    MethodForm.ofJson? value = MethodForm.ofJson? other := by
  rw [MethodForm.ofJson?, MethodForm.ofJson?, plainly.word?_eq]

theorem tag?_eq (plainly : Plainly value other) : Tag.ofJson? value = Tag.ofJson? other := by
  cases plainly <;> rfl

end Json.Plainly

/-- Two values that are read alike in a role. -/
def Role.Agrees : Role → Json → Json → Prop
  | .node, value, other =>
      (Node.readField value).node? = (Node.readField other).node? ∧
        (Node.readField value).child? = (Node.readField other).child?
  | .nodes, value, other =>
      (Node.readField value).nodes? = (Node.readField other).nodes? ∧
        (Node.readField value).slots? = (Node.readField other).slots?
  | .span, value, other => Span.ofJson? value = Span.ofJson? other
  | .quasi, value, other => Quasi.ofJson? value = Quasi.ofJson? other
  | .quasis, value, other => (Node.readField value).quasis? = (Node.readField other).quasis?
  | .plain, value, other => value.Plainly other

/-- A value agrees with itself in every role. -/
theorem Role.Agrees.refl (role : Role) (value : Json) : role.Agrees value value := by
  cases role with
  | node | nodes => exact ⟨rfl, rfl⟩
  | span | quasi | quasis => exact Eq.refl _
  | plain => exact .same value

/-- Two objects whose members with a key are read alike in a role: neither has one or both have one, or
in both the key is repeated. -/
def Role.AgreesAt (role : Role) (key : String) (members others : List (String × Json)) : Prop :=
  Option.Rel (Option.Rel role.Agrees) (Json.only? key members) (Json.only? key others)

namespace Role.AgreesAt

variable {role : Role} {key : String} {members others : List (String × Json)}

/-- Members that have the same value for a key agree there in every role. -/
theorem of_eq (same : Json.only? key members = Json.only? key others) :
    role.AgreesAt key members others := by
  rw [AgreesAt, same]
  rcases Json.only? key others with _ | _ | value
  · exact .none
  · exact .some .none
  · exact .some (.some (.refl role value))

variable {α : Type} {read : Json → Option α}

/-- Values that agree are read alike where a key is required. -/
theorem required? (agrees : role.AgreesAt key members others)
    (alike : ∀ value other, role.Agrees value other → read value = read other) :
    Json.required? key read members = Json.required? key read others := by
  rw [AgreesAt] at agrees
  rw [Json.required?, Json.required?]
  generalize Json.only? key members = found at agrees ⊢
  generalize Json.only? key others = also at agrees ⊢
  cases agrees with
  | none => rfl
  | some same =>
      cases same with
      | none => rfl
      | some same => exact alike _ _ same

/-- Values that agree are read alike where a key has a default. -/
theorem defaulted? (agrees : role.AgreesAt key members others) (default : α)
    (alike : ∀ value other, role.Agrees value other → read value = read other) :
    Json.defaulted? key default read members = Json.defaulted? key default read others := by
  rw [AgreesAt] at agrees
  rw [Json.defaulted?, Json.defaulted?]
  generalize Json.only? key members = found at agrees ⊢
  generalize Json.only? key others = also at agrees ⊢
  cases agrees with
  | none => rfl
  | some same =>
      cases same with
      | none => rfl
      | some same => exact alike _ _ same

end Role.AgreesAt

/-! ### Fields of nodes -/

namespace Node

variable {members others : List (String × Json)} {key : String}

/-- Members that agree in a node have the same node to be read. -/
theorem node?_agrees (agrees : Role.node.AgreesAt key members others) :
    (readMembers members).node? key = (readMembers others).node? key := by
  rw [Fields.node?, Fields.node?, readMembers_eq_map, readMembers_eq_map, Json.required?_map,
    Json.required?_map]
  exact agrees.required? fun _ _ same => same.1

/-- The same for a child that can be null. -/
theorem child?_agrees (agrees : Role.node.AgreesAt key members others) :
    (readMembers members).child? key = (readMembers others).child? key := by
  rw [Fields.child?, Fields.child?, readMembers_eq_map, readMembers_eq_map, Json.defaulted?_map,
    Json.defaulted?_map]
  exact agrees.defaulted? _ fun _ _ same => same.2

/-- Members that agree in a list of nodes have the same nodes to be read. -/
theorem nodes?_agrees (agrees : Role.nodes.AgreesAt key members others) :
    (readMembers members).nodes? key = (readMembers others).nodes? key := by
  rw [Fields.nodes?, Fields.nodes?, readMembers_eq_map, readMembers_eq_map, Json.required?_map,
    Json.required?_map]
  exact agrees.required? fun _ _ same => same.1

/-- The same for the elements of an array, with its holes. -/
theorem slots?_agrees (agrees : Role.nodes.AgreesAt key members others) :
    Json.required? key Field.slots? (readMembers members) =
      Json.required? key Field.slots? (readMembers others) := by
  rw [readMembers_eq_map, readMembers_eq_map, Json.required?_map, Json.required?_map]
  exact agrees.required? fun _ _ same => same.2

/-- Members that agree in the pieces of a template have the same pieces to be read. -/
theorem quasis?_agrees (agrees : Role.quasis.AgreesAt key members others) :
    Json.required? key Field.quasis? (readMembers members) =
      Json.required? key Field.quasis? (readMembers others) := by
  rw [readMembers_eq_map, readMembers_eq_map, Json.required?_map, Json.required?_map]
  exact agrees.required? fun _ _ same => same

/-- A plain field that must be there is read alike, whatever is read of it. -/
theorem required?_agrees {α : Type} {read : Json → Option α}
    (alike : ∀ value other, Json.Plainly value other → read value = read other)
    (agrees : Role.plain.AgreesAt key members others) :
    Json.required? key (fun field => read field.json) (readMembers members) =
      Json.required? key (fun field => read field.json) (readMembers others) := by
  rw [readMembers_eq_map, readMembers_eq_map, Json.required?_map, Json.required?_map]
  exact agrees.required? fun value other same => by
    rw [json_readField, json_readField]
    exact alike value other same

/-- Members that agree plainly are read alike by whatever reads no more than that. -/
theorem defaulted?_agrees {α : Type} {read : Json → Option α} (default : α)
    (alike : ∀ value other, Json.Plainly value other → read value = read other)
    (agrees : Role.plain.AgreesAt key members others) :
    Json.defaulted? key default (fun field => read field.json) (readMembers members) =
      Json.defaulted? key default (fun field => read field.json) (readMembers others) := by
  rw [readMembers_eq_map, readMembers_eq_map, Json.defaulted?_map, Json.defaulted?_map]
  exact agrees.defaulted? _ fun value other same => by
    rw [json_readField, json_readField]
    exact alike value other same

/-- The kind of a type is read alike from objects that agree at all its fields. -/
theorem kind?_agrees {tag : Tag}
    (agrees : ∀ field ∈ tag.fields, field.2.AgreesAt field.1 members others) :
    (readMembers members).kind? tag = (readMembers others).kind? tag := by
  have node key (agrees : Role.node.AgreesAt key members others) := node?_agrees agrees
  have child key (agrees : Role.node.AgreesAt key members others) := child?_agrees agrees
  have nodes key (agrees : Role.nodes.AgreesAt key members others) := nodes?_agrees agrees
  have slots key (agrees : Role.nodes.AgreesAt key members others) := slots?_agrees agrees
  have quasis key (agrees : Role.quasis.AgreesAt key members others) := quasis?_agrees agrees
  have text key (plain : Role.plain.AgreesAt key members others) :
      (readMembers members).text? key = (readMembers others).text? key :=
    required?_agrees (fun _ _ => Json.Plainly.text?_eq) plain
  have flag key default (plain : Role.plain.AgreesAt key members others) :
      (readMembers members).flag? key default = (readMembers others).flag? key default :=
    defaulted?_agrees _ (fun _ _ => Json.Plainly.bool?_eq) plain
  have methodForm (plain : Role.plain.AgreesAt "kind" members others) :
      (readMembers members).methodForm? = (readMembers others).methodForm? :=
    defaulted?_agrees _ (fun _ _ => Json.Plainly.methodForm?_eq) plain
  cases tag with
  | declaration =>
      obtain ⟨form, declarations, -⟩ := by
        simpa only [Tag.fields, List.forall_mem_cons] using agrees
      have form := required?_agrees (fun _ _ => Json.Plainly.declarationForm?_eq) form
      simp only [Fields.kind?, form, nodes _ declarations]
  | number =>
      have value := required?_agrees (fun _ _ => Json.Plainly.real?_eq)
        (agrees _ List.mem_cons_self)
      simp only [Fields.kind?, value]
  | boolean =>
      have value := required?_agrees (fun _ _ => Json.Plainly.bool?_eq)
        (agrees _ List.mem_cons_self)
      simp only [Fields.kind?, value]
  | regExp =>
      obtain ⟨pattern, flags, -⟩ := by
        simpa only [Tag.fields, List.forall_mem_cons] using agrees
      have flags := defaulted?_agrees "" (fun _ _ => Json.Plainly.text?_eq) flags
      simp only [Fields.kind?, text _ pattern, flags]
  | _ =>
      simp only [Tag.fields, List.forall_mem_cons] at agrees
      simp [Fields.kind?, agrees, node, child, nodes, slots, quasis, text, flag, methodForm]

/-- What is spelled as an object is no null: a child if anything. -/
theorem child?_object (members : List (String × Json)) :
    (readField (.object members)).child? = (readField (.object members)).node?.map some := by
  rw [Field.child?, json_readField]

/-- The type of the node that an object describes, if it has one. -/
def typeOf? (members : List (String × Json)) : Option Tag :=
  Json.required? "type" Tag.ofJson? members

/-- Members that agree in every field that their type has make the same node. -/
theorem toNode?_agrees
    (agrees : ∀ field ∈ Role.node.fields (typeOf? members), field.2.AgreesAt field.1 members others) :
    (readMembers members).toNode? = (readMembers others).toNode? := by
  obtain ⟨type, span, fields⟩ := by
    simpa only [Role.fields, List.forall_mem_cons] using agrees
  have type := type.required? fun _ _ => Json.Plainly.tag?_eq
  have span := span.defaulted? Span.synthetic fun _ _ same => same
  rw [toNode?_readMembers, toNode?_readMembers, ← type, ← span]
  cases found : Json.required? "type" Tag.ofJson? members with
  | none => rfl
  | some tag =>
      rw [typeOf?, found] at fields
      rw [Option.bind_some, Option.bind_some, kind?_agrees fields]

end Node

/-- Two objects are read alike as what has fields if they agree at all the fields. -/
theorem Role.agrees_of_agreesAt {role : Role} (record : role.isRecord = true)
    {members others : List (String × Json)}
    (agrees : ∀ field ∈ role.fields (Node.typeOf? members),
      field.2.AgreesAt field.1 members others) :
    role.Agrees (.object members) (.object others) := by
  cases role with
  | node =>
      have node : (Node.readField (.object members)).node? =
          (Node.readField (.object others)).node? := by
        rw [Node.readField, Node.readField]
        exact Node.toNode?_agrees agrees
      exact ⟨node, by rw [Node.child?_object, Node.child?_object, node]⟩
  | span =>
      obtain ⟨start, stop, -⟩ := by
        simpa only [Role.fields, List.forall_mem_cons] using agrees
      have start := start.required? fun _ _ => Json.Plainly.offset?_eq
      have stop := stop.required? fun _ _ => Json.Plainly.offset?_eq
      show Span.ofJson? _ = Span.ofJson? _
      rw [Span.ofJson?, Span.ofJson?, start, stop]
  | quasi =>
      obtain ⟨raw, span, -⟩ := by
        simpa only [Role.fields, List.forall_mem_cons] using agrees
      have raw := raw.required? fun _ _ => Json.Plainly.text?_eq
      have span := span.defaulted? Span.synthetic fun _ _ same => same
      show Quasi.ofJson? _ = Quasi.ofJson? _
      rw [Quasi.ofJson?, Quasi.ofJson?, raw, span]
  | nodes | quasis | plain => cases record

end Imprint
