/-
Module: Imprint.Proofs.RearrangedMembers
Purpose: Texts of trees whose members are rearranged. The members of any object may come in another
  order, and a node, a span or a template stretch may have further members that are none of its fields,
  as long as their values can be read. The tree that is read stays the same, and so does whether there
  is one.
Main exports: Document.Edited, Document.Rearranged, Document.Edited.agrees,
  Node.ofDocument?_rearranged, rearranged_members_change_nothing
-/
import Imprint.Proofs.FieldRoles
import Imprint.Proofs.JsonDocuments
import Mathlib.Logic.Relation

namespace Imprint

/-! ### Traversals -/

/-- In another order the same is read, or again not all of it can be. -/
theorem mapM_perm {α β : Type} (read : α → Option β) {list other : List α} (perm : list.Perm other) :
    Option.Rel List.Perm (list.mapM read) (other.mapM read) := by
  induction perm with
  | nil => exact .some .nil
  | @cons item list other _ ih =>
      rw [List.mapM_cons, List.mapM_cons]
      generalize list.mapM read = values at ih ⊢
      generalize other.mapM read = others at ih ⊢
      cases read item with
      | none => exact .none
      | some value =>
          cases ih with
          | some perm => exact .some (perm.cons value)
          | none => exact .none
  | swap first second rest =>
      simp only [List.mapM_cons]
      cases read first <;> cases read second <;> cases rest.mapM read <;>
        first
        | exact .none
        | exact .some (.swap _ _ _)
  | @trans list middle other _ _ ih also =>
      generalize list.mapM read = values at ih ⊢
      generalize middle.mapM read = between at ih also
      generalize other.mapM read = others at also ⊢
      cases ih with
      | none => exact also
      | some perm =>
          cases also with
          | some further => exact .some (perm.trans further)

/-- A list with something in its middle is read where its other members and that are. -/
theorem mapM_middle {α β : Type} (read : α → Option β) (front back : List α) (item : α) :
    (front ++ item :: back).mapM read =
      (front.mapM read).bind fun front => (back.mapM read).bind fun back =>
        (read item).map fun item => front ++ item :: back := by
  rw [List.mapM_append, List.mapM_cons]
  cases front.mapM read <;> cases read item <;> cases back.mapM read <;> rfl

/-! ### Members in another order -/

namespace Json

variable {α : Type} {key : String}

/-- The order of members has no say in which one is the only one with a key. -/
theorem only?_perm {members others : List (String × α)} (perm : members.Perm others) :
    only? key members = only? key others := by
  unfold only?
  have kept := perm.filter fun member => member.1 == key
  generalize members.filter _ = here at kept ⊢
  generalize others.filter _ = there at kept ⊢
  have length := kept.length_eq
  match here, there with
  | [], [] => rfl
  | [first], [second] =>
      obtain rfl := List.singleton_inj.mp (List.perm_singleton.mp kept)
      rfl
  | _ :: _ :: _, _ :: _ :: _ => rfl
  | [], _ :: _ | [_], [] | [_], _ :: _ :: _ | _ :: _ :: _, [] | _ :: _ :: _, [_] =>
      simp at length

/-- Nor has a member with another key, wherever it stands. -/
theorem only?_middle_of_ne {other : String} (ne : other ≠ key) (value : α)
    (front back : List (String × α)) :
    only? key (front ++ (other, value) :: back) = only? key (front ++ back) := by
  simp [only?, ne]

/-- A word is no object of two members. -/
theorem word?_of_two {members : List (String × Json)} (two : 2 ≤ members.length) :
    word? (.object members) = none := by
  match members with
  | [] | [_] => simp at two
  | _ :: _ :: _ => simp [word?]

end Json

namespace Role

variable {role : Role} {key : String} {value other : Json}

/-- Where one value takes the place of another that is read alike, objects agree. -/
theorem AgreesAt.middle (agrees : role.Agrees value other)
    (front back : List (String × Json)) :
    role.AgreesAt key (front ++ (key, value) :: back) (front ++ (key, other) :: back) := by
  have keeps (value : Json) :
      ((front ++ (key, value) :: back).filter fun member => member.1 == key) =
        (front.filter fun member => member.1 == key) ++
          (key, value) :: back.filter fun member => member.1 == key := by
    simp
  rw [AgreesAt, Json.only?, Json.only?, keeps, keeps]
  generalize front.filter _ = before
  generalize back.filter _ = after
  rcases before with _ | ⟨first, rest⟩
  · rcases after with _ | ⟨next, more⟩
    · exact .some (.some agrees)
    · exact .none
  · rcases rest with _ | ⟨second, more⟩ <;> exact .none

/-- Any two objects agree as what is no object. -/
theorem agrees_objects (list : role = .nodes ∨ role = .quasis)
    (members others : List (String × Json)) : role.Agrees (.object members) (.object others) := by
  rcases list with rfl | rfl
  · exact ⟨by rw [Node.readField, Node.readField], by rw [Node.readField, Node.readField]⟩
  · show (Node.readField _).quasis? = (Node.readField _).quasis?
    rw [Field.quasis?, Field.quasis?, Node.json_readField, Node.json_readField]

/-- What is read in a role is an object, a list, or a value that is taken as it is. -/
theorem cases_isRecord (role : Role) :
    role.isRecord = true ∨ (role = .nodes ∨ role = .quasis) ∨ role = .plain := by
  cases role <;> decide

/-- The order of members does not matter in any role. -/
theorem Agrees.reorder (role : Role) {members others : List (String × Json)}
    (perm : members.Perm others) : role.Agrees (.object members) (.object others) := by
  rcases role.cases_isRecord with record | list | rfl
  · exact agrees_of_agreesAt record fun field _ => .of_eq (Json.only?_perm perm)
  · exact agrees_objects list members others
  · match members, others with
    | [], others =>
        obtain rfl := List.nil_perm.mp perm
        exact .same _
    | [member], others =>
        obtain rfl := List.singleton_perm.mp perm
        exact .same _
    | first :: second :: rest, others =>
        have length := perm.length_eq
        have two : 2 ≤ others.length := by simp [← length]
        refine .objects (List.cons_ne_nil _ _) (List.ne_nil_of_length_pos (by omega)) ?_
        rw [Json.word?_of_two two, Json.word?_of_two (by simp)]

/-- A member that is no field does not matter. -/
theorem Agrees.add (record : role.isRecord = true) {front back : List (String × Json)}
    (unknown : ∀ field ∈ role.fields (Node.typeOf? (front ++ back)), field.1 ≠ key)
    (value : Json) : role.Agrees (.object (front ++ back)) (.object (front ++ (key, value) :: back)) :=
  agrees_of_agreesAt record fun field mem =>
    .of_eq (Json.only?_middle_of_ne (unknown field mem).symm value front back).symm

/-- A member may be replaced by one that is read alike in its role. -/
theorem Agrees.member {front back : List (String × Json)}
    (inside : (role.member (Node.typeOf? (front ++ (key, value) :: back)) key).Agrees value other) :
    role.Agrees (.object (front ++ (key, value) :: back))
      (.object (front ++ (key, other) :: back)) := by
  rcases role.cases_isRecord with record | list | rfl
  · refine agrees_of_agreesAt record fun field mem => ?_
    by_cases same : field.1 = key
    · subst same
      rw [member_of_mem_fields mem] at inside
      exact AgreesAt.middle inside front back
    · refine .of_eq ?_
      rw [Json.only?_middle_of_ne (Ne.symm same), Json.only?_middle_of_ne (Ne.symm same)]
  · exact agrees_objects list _ _
  · refine .objects (by simp) (by simp) ?_
    by_cases single : front = [] ∧ back = []
    · obtain ⟨rfl, rfl⟩ := single
      cases inside with
      | same => rfl
      | arrays => rfl
      | @objects members others here there _ =>
          obtain ⟨first, rest, rfl⟩ := List.exists_cons_of_ne_nil here
          obtain ⟨second, more, rfl⟩ := List.exists_cons_of_ne_nil there
          rfl
    · have two (value : Json) : 2 ≤ (front ++ (key, value) :: back).length := by
        rcases front with _ | ⟨first, rest⟩
        · rcases back with _ | ⟨next, more⟩
          · exact absurd ⟨rfl, rfl⟩ single
          · simp
        · simp
          omega
      rw [Json.word?_of_two (two value), Json.word?_of_two (two other)]

/-! ### Items -/

/-- The items of a list are read one by one. -/
theorem mapM_readItems {α : Type} (read : Field → Option α) (items : List Json) :
    (Node.readItems items).mapM read = items.mapM fun item => read (Node.readField item) := by
  induction items with
  | nil => rfl
  | cons item rest ih => rw [Node.readItems, List.mapM_cons, List.mapM_cons, ih]

/-- An item may be replaced by one that is read alike in its role. -/
theorem Agrees.item {front back : List Json} (inside : (role.item front.length).Agrees value other) :
    role.Agrees (.array (front ++ value :: back)) (.array (front ++ other :: back)) := by
  cases role with
  | node =>
      refine ⟨by rw [Node.readField, Node.readField], ?_⟩
      rw [Field.child?, Field.child?, Node.json_readField, Node.json_readField, Node.readField,
        Node.readField]
  | nodes =>
      obtain ⟨node, child⟩ := inside
      constructor
      · rw [Node.readField, Node.readField]
        show (Node.readItems _).mapM Field.node? = (Node.readItems _).mapM Field.node?
        rw [mapM_readItems, mapM_readItems, mapM_middle, mapM_middle, node]
      · rw [Node.readField, Node.readField]
        show (Node.readItems _).mapM Field.child? = (Node.readItems _).mapM Field.child?
        rw [mapM_readItems, mapM_readItems, mapM_middle, mapM_middle, child]
  | span =>
      have offset := Json.Plainly.offset?_eq inside
      show Span.ofJson? _ = Span.ofJson? _
      rcases front with _ | ⟨start, _ | ⟨second, more⟩⟩
      · rcases back with _ | ⟨stop, _ | ⟨third, more⟩⟩
        · simp [Span.ofJson?]
        · simp [Span.ofJson?, offset]
        · simp [Span.ofJson?]
      · rcases back with _ | ⟨third, more⟩
        · simp [Span.ofJson?, offset]
        · simp [Span.ofJson?]
      · simp [Span.ofJson?]
  | quasi =>
      show Quasi.ofJson? _ = Quasi.ofJson? _
      rcases front with _ | ⟨raw, _ | ⟨second, more⟩⟩
      · have raw := Json.Plainly.text?_eq inside
        rcases back with _ | ⟨stretch, _ | ⟨third, more⟩⟩
        · simp [Quasi.ofJson?, raw]
        · simp [Quasi.ofJson?, raw]
        · simp [Quasi.ofJson?]
      · have stretch : Span.ofJson? value = Span.ofJson? other := inside
        rcases back with _ | ⟨third, more⟩
        · simp [Quasi.ofJson?, stretch]
        · simp [Quasi.ofJson?]
      · simp [Quasi.ofJson?]
  | quasis =>
      show (Node.readField _).quasis? = (Node.readField _).quasis?
      rw [Field.quasis?, Field.quasis?, Node.json_readField, Node.json_readField]
      show (front ++ value :: back).mapM Quasi.ofJson? = (front ++ other :: back).mapM Quasi.ofJson?
      have stretch : Quasi.ofJson? value = Quasi.ofJson? other := inside
      rw [mapM_middle, mapM_middle, stretch]
  | plain => exact .arrays _ _

end Role

/-! ### Changes to a document -/

namespace Document

/-- The type that a document spells, by name or by place. -/
def tag? : Document → Option Tag
  | .text (some name) => Tag.ofName? name
  | .number (some (.whole index)) => Tag.ofIndex? index
  | _ => none

/-- The type of an object, if it has one and does not repeat it. -/
def typeOf? (members : List (Option String × Document)) : Option Tag :=
  match members.filter fun member => member.1 == some "type" with
  | [(_, document)] => document.tag?
  | _ => none

/-- One change to a document in a role, where so many arrays and objects may still stand inside each
other: the members of an object come in another order, a record gets a member that is no field of it
and whose value can be read, or one member or item is changed in its own role. -/
inductive Edited : Nat → Role → Document → Document → Prop where
  | reorder {room : Nat} {role : Role} {members others : List (Option String × Document)}
      (perm : members.Perm others) : Edited room role (.object members) (.object others)
  | add {room : Nat} {role : Role} {front back : List (Option String × Document)} {key : String}
      {value : Document} (record : role.isRecord = true)
      (unknown : ∀ field ∈ role.fields (typeOf? (front ++ back)), field.1 ≠ key)
      (readable : (value.value? (room - 1)).isSome = true) :
      Edited room role (.object (front ++ back)) (.object (front ++ (some key, value) :: back))
  | member {room : Nat} {role : Role} {front back : List (Option String × Document)}
      {key : Option String} {value other : Document}
      (inside : Edited (room - 1)
        ((key.map (role.member (typeOf? (front ++ (key, value) :: back)))).getD .plain) value other) :
      Edited room role (.object (front ++ (key, value) :: back))
        (.object (front ++ (key, other) :: back))
  | item {room : Nat} {role : Role} {front back : List Document} {value other : Document}
      (inside : Edited (room - 1) (role.item front.length) value other) :
      Edited room role (.array (front ++ value :: back)) (.array (front ++ other :: back))

/-- One change to the document of a tree: a change to the outermost node, or a further member in the
span of the outermost node. The value of such a member is never read. -/
inductive Rearranged : Document → Document → Prop where
  | edited {document other : Document} (edit : Edited depthLimit .node document other) :
      Rearranged document other
  | skipped {front back inner outer : List (Option String × Document)} {key : String}
      {value : Document} (unknown : ∀ field ∈ Role.span.fields none, field.1 ≠ key) :
      Rearranged (.object (front ++ (some "span", .object (inner ++ outer)) :: back))
        (.object (front ++ (some "span", .object (inner ++ (some key, value) :: outer)) :: back))

/-! ### Values of changed documents -/

/-- The tag that a document shows is the one that is read from its value. -/
theorem tag?_document (value : Json) : value.document.tag? = Tag.ofJson? value := by
  cases value with
  | number value => cases value <;> rfl
  | _ => rfl

/-- The type that a document shows is the one that its value has. -/
theorem typeOf?_memberDocuments (members : List (String × Json)) :
    typeOf? (Json.memberDocuments members) = Node.typeOf? members := by
  rw [typeOf?, Node.typeOf?, Json.required?, Json.only?, Json.memberDocuments_eq_map,
    List.filter_map]
  have same : ((fun member : Option String × Document => member.1 == some "type") ∘
      fun member : String × Json => (some member.1, member.2.document)) =
        fun member => member.1 == "type" := by
    funext member
    simp
  rw [same]
  generalize members.filter _ = kept
  rcases kept with _ | ⟨first, _ | ⟨second, rest⟩⟩
  · rfl
  · exact tag?_document first.2
  · rfl

mutual

/-- Only the document of a value has that value. -/
theorem eq_document_of_value? : (document : Document) → (room : Nat) → (value : Json) →
    value? room document = some value → document = value.document
  | .null, _, _, found => by
      rw [value?] at found
      cases found
      rfl
  | .bool _, _, _, found => by
      rw [value?] at found
      cases found
      rfl
  | .number value, _, _, found => by
      rw [value?] at found
      obtain ⟨number, rfl, rfl⟩ := Option.map_eq_some_iff.mp found
      rfl
  | .text content, _, _, found => by
      rw [value?] at found
      obtain ⟨text, rfl, rfl⟩ := Option.map_eq_some_iff.mp found
      rfl
  | .array items, room, _, found => by
      cases room with
      | zero =>
          rw [value?] at found
          cases found
      | succ room =>
          rw [value?] at found
          obtain ⟨values, read, rfl⟩ := Option.map_eq_some_iff.mp found
          rw [Json.document, eq_itemDocuments items room values read]
  | .object members, room, _, found => by
      cases room with
      | zero =>
          rw [value?] at found
          cases found
      | succ room =>
          rw [value?] at found
          obtain ⟨values, read, rfl⟩ := Option.map_eq_some_iff.mp found
          rw [Json.document, eq_memberDocuments members room values read]

/-- Items that have values are the documents of these values. -/
theorem eq_itemDocuments : (items : List Document) → (room : Nat) → (values : List Json) →
    values? room items = some values → items = Json.itemDocuments values
  | [], _, _, found => by
      rw [values?] at found
      cases found
      rfl
  | item :: rest, room, _, found => by
      rw [values?] at found
      split at found
      · rename_i value values head tail
        cases found
        rw [Json.itemDocuments, eq_document_of_value? item room value head,
          eq_itemDocuments rest room values tail]
      · cases found

/-- So are members that have values. -/
theorem eq_memberDocuments : (members : List (Option String × Document)) → (room : Nat) →
    (values : List (String × Json)) → memberValues? room members = some values →
    members = Json.memberDocuments values
  | [], _, _, found => by
      rw [memberValues?] at found
      cases found
      rfl
  | (none, _) :: _, _, _, found => by simp [memberValues?] at found
  | (some key, item) :: rest, room, _, found => by
      simp only [memberValues?] at found
      split at found
      · rename_i value values named head tail
        cases named
        cases found
        rw [Json.memberDocuments, eq_document_of_value? item room value head,
          eq_memberDocuments rest room values tail]
      · cases found

end

/-- The value of one member, whose key must denote something too. -/
def memberValue? (room : Nat) (member : Option String × Document) : Option (String × Json) :=
  member.1.bind fun key => (value? room member.2).map fun value => (key, value)

/-- A list has a value when all of its items have one. -/
theorem values?_eq_mapM (room : Nat) (items : List Document) :
    values? room items = items.mapM (value? room) := by
  induction items with
  | nil => rw [values?, List.mapM_nil, Option.pure_def]
  | cons item rest ih =>
      rw [values?, List.mapM_cons, ih]
      cases value? room item <;> cases rest.mapM (value? room) <;> rfl

/-- An object has a value when all of its members have one. -/
theorem memberValues?_eq_mapM (room : Nat) (members : List (Option String × Document)) :
    memberValues? room members = members.mapM (memberValue? room) := by
  induction members with
  | nil => rw [memberValues?, List.mapM_nil, Option.pure_def]
  | cons member rest ih =>
      obtain ⟨key, item⟩ := member
      rw [List.mapM_cons, ← ih]
      cases key with
      | none => simp [memberValues?, memberValue?]
      | some key =>
          cases found : value? room item <;> cases others : memberValues? room rest <;>
            simp [memberValues?, memberValue?, found, others]

/-! ### Changes that do not matter -/

section

variable {room : Nat} {role : Role}

theorem length_itemDocuments (items : List Json) :
    (Json.itemDocuments items).length = items.length := by
  induction items with
  | nil => rfl
  | cons item rest ih => rw [Json.itemDocuments, List.length_cons, ih, List.length_cons]

theorem memberDocuments_append (members others : List (String × Json)) :
    Json.memberDocuments (members ++ others) =
      Json.memberDocuments members ++ Json.memberDocuments others := by
  rw [Json.memberDocuments_eq_map, Json.memberDocuments_eq_map, Json.memberDocuments_eq_map,
    List.map_append]

/-- An object whose members are reordered is read alike in every role. -/
theorem agrees_reorder {members others : List (Option String × Document)}
    (perm : members.Perm others) :
    Option.Rel role.Agrees (value? room (.object members)) (value? room (.object others)) := by
  cases room with
  | zero =>
      rw [value?, value?]
      exact .none
  | succ room =>
      have read := mapM_perm (memberValue? room) perm
      rw [value?, value?, memberValues?_eq_mapM, memberValues?_eq_mapM]
      generalize members.mapM (memberValue? room) = here at read ⊢
      generalize others.mapM (memberValue? room) = there at read ⊢
      cases read with
      | none => exact .none
      | some perm => exact .some (.reorder role perm)

/-- An object with one more member, readable but unknown to its role, is read alike. -/
theorem agrees_add {front back : List (Option String × Document)} {key : String}
    {value : Document} (record : role.isRecord = true)
    (unknown : ∀ field ∈ role.fields (typeOf? (front ++ back)), field.1 ≠ key)
    (readable : (value.value? (room - 1)).isSome = true) :
    Option.Rel role.Agrees (value? room (.object (front ++ back)))
      (value? room (.object (front ++ (some key, value) :: back))) := by
  cases room with
  | zero =>
      rw [value?, value?]
      exact .none
  | succ room =>
      obtain ⟨added, read⟩ := Option.isSome_iff_exists.mp readable
      have member : memberValue? room (some key, value) = some (key, added) := by
        rw [memberValue?, Option.bind_some]
        exact congrArg (Option.map _) read
      rw [value?, value?, memberValues?_eq_mapM, memberValues?_eq_mapM, mapM_middle, member,
        List.mapM_append]
      cases first : front.mapM (memberValue? room) with
      | none => exact .none
      | some before =>
          cases second : back.mapM (memberValue? room) with
          | none => exact .none
          | some after =>
              rw [← memberValues?_eq_mapM] at first second
              rw [eq_memberDocuments _ _ _ first, eq_memberDocuments _ _ _ second,
                ← memberDocuments_append, typeOf?_memberDocuments] at unknown
              exact .some (.add record unknown added)

/-- What is read of an object is told by its members in front of one, behind it and that one. -/
theorem agrees_member {front back : List (Option String × Document)} {key : Option String}
    {value other : Document}
    (inside : Option.Rel
      ((key.map (role.member (typeOf? (front ++ (key, value) :: back)))).getD .plain).Agrees
      (value? (room - 1) value) (value? (room - 1) other)) :
    Option.Rel role.Agrees (value? room (.object (front ++ (key, value) :: back)))
      (value? room (.object (front ++ (key, other) :: back))) := by
  cases room with
  | zero =>
      rw [value?, value?]
      exact .none
  | succ room =>
      rw [value?, value?, memberValues?_eq_mapM, memberValues?_eq_mapM, mapM_middle, mapM_middle]
      cases first : front.mapM (memberValue? room) with
      | none => exact .none
      | some before =>
          cases second : back.mapM (memberValue? room) with
          | none => exact .none
          | some after =>
              cases key with
              | none => exact .none
              | some key =>
                  rw [Nat.add_sub_cancel] at inside
                  rw [memberValue?, memberValue?, Option.bind_some, Option.bind_some]
                  cases here : value? room value with
                  | none =>
                      rw [here] at inside
                      generalize value? room other = there at inside ⊢
                      cases inside
                      exact .none
                  | some read =>
                      rw [← memberValues?_eq_mapM] at first second
                      have whole : front ++ (some key, value) :: back =
                          Json.memberDocuments (before ++ (key, read) :: after) := by
                        rw [memberDocuments_append, Json.memberDocuments,
                          ← eq_memberDocuments _ _ _ first, ← eq_memberDocuments _ _ _ second,
                          ← eq_document_of_value? _ _ _ here]
                      rw [whole, typeOf?_memberDocuments, here] at inside
                      generalize value? room other = there at inside ⊢
                      cases inside with
                      | some agrees => exact .some (.member agrees)

/-- A list in which one item gave way to one that is read alike is read alike. -/
theorem agrees_item {front back : List Document} {value other : Document}
    (inside : Option.Rel (role.item front.length).Agrees (value? (room - 1) value)
      (value? (room - 1) other)) :
    Option.Rel role.Agrees (value? room (.array (front ++ value :: back)))
      (value? room (.array (front ++ other :: back))) := by
  cases room with
  | zero =>
      rw [value?, value?]
      exact .none
  | succ room =>
      rw [value?, value?, values?_eq_mapM, values?_eq_mapM, mapM_middle, mapM_middle]
      cases first : front.mapM (value? room) with
      | none => exact .none
      | some before =>
          cases back.mapM (value? room) with
          | none => exact .none
          | some after =>
              rw [Nat.add_sub_cancel] at inside
              have length : before.length = front.length := by
                rw [← values?_eq_mapM] at first
                rw [eq_itemDocuments _ _ _ first, length_itemDocuments]
              rw [← length] at inside
              generalize value? room value = here at inside ⊢
              generalize value? room other = there at inside ⊢
              cases inside with
              | none => exact .none
              | some agrees => exact .some (.item agrees)

/-- A change leaves what a document is read as in its role, or again there is nothing to read. -/
theorem Edited.agrees {document other : Document} (edit : Edited room role document other) :
    Option.Rel role.Agrees (value? room document) (value? room other) := by
  induction edit with
  | reorder perm => exact agrees_reorder perm
  | add record unknown readable => exact agrees_add record unknown readable
  | member _ inside => exact agrees_member inside
  | item _ inside => exact agrees_item inside

end

/-! ### What a reader skips -/

/-- The document of a tree without what is skipped in the span of the outermost node. -/
def pruned (document : Document) : Document := document.mapMember "span" (keepMembers ["start", "end"])

section

variable {room : Nat}

/-- The member of an object after what is skipped in its span is gone. -/
def prunedMember (member : Option String × Document) : Option String × Document :=
  (member.1, if member.1 = some "span" then member.2.keepMembers ["start", "end"] else member.2)

theorem pruned_object (members : List (Option String × Document)) :
    pruned (.object members) = .object (members.map prunedMember) := rfl

/-- No member but the span of a document is pruned. -/
theorem prunedMember_of_ne {key : Option String} (ne : key ≠ some "span") (value : Document) :
    prunedMember (key, value) = (key, value) := by
  rw [prunedMember, if_neg ne]

/-- A pruned document has the type that it had. -/
theorem typeOf?_pruned (members : List (Option String × Document)) :
    typeOf? (members.map prunedMember) = typeOf? members := by
  rw [typeOf?, typeOf?, List.filter_map]
  have same : ((fun member : Option String × Document => member.1 == some "type") ∘
      prunedMember) = fun member => member.1 == some "type" := rfl
  rw [same]
  have fixed : ∀ member ∈ members.filter (fun member => member.1 == some "type"),
      prunedMember member = member := by
    intro member mem
    have type : member.1 = some "type" := by simpa using (List.mem_filter.mp mem).2
    exact prunedMember_of_ne (by rw [type]; decide) member.2
  rw [List.map_congr_left fixed, List.map_id']

/-- A member that no span has makes no difference to what is kept of a span. -/
theorem keepMembers_add {key : String} (unknown : ∀ field ∈ Role.span.fields none, field.1 ≠ key)
    (value : Document) (front back : List (Option String × Document)) :
    keepMembers ["start", "end"] (.object (front ++ (some key, value) :: back)) =
      keepMembers ["start", "end"] (.object (front ++ back)) := by
  have start := unknown ("start", .plain) (by decide)
  have stop := unknown ("end", .plain) (by decide)
  simp [keepMembers, Ne.symm start, Ne.symm stop]

/-- A change to a span is a change to what is kept of it, unless it is skipped. -/
theorem Edited.keepMembers {document other : Document} (edit : Edited room .span document other) :
    Relation.ReflGen (Edited room .span) (document.keepMembers ["start", "end"])
      (other.keepMembers ["start", "end"]) := by
  cases edit with
  | reorder perm => exact .single (.reorder (perm.filter _))
  | @add _ _ front back key value _ unknown _ =>
      have same := keepMembers_add unknown value front back
      exact same ▸ .refl
  | @member _ _ front back key value other inside =>
      rw [Document.keepMembers, Document.keepMembers, List.filter_append, List.filter_append,
        List.filter_cons, List.filter_cons]
      by_cases kept : (key.map ["start", "end"].contains).getD true = true
      · rw [if_pos kept, if_pos kept]
        exact .single (.member inside)
      · rw [if_neg kept, if_neg kept]
  | item inside => exact .single (.item inside)

/-- A change to a node is a change to what is left of it, unless it is skipped. -/
theorem Edited.pruned {document other : Document} (edit : Edited room .node document other) :
    Relation.ReflGen (Edited room .node) document.pruned other.pruned := by
  cases edit with
  | reorder perm => exact .single (.reorder (perm.map _))
  | @add _ _ front back key value record unknown readable =>
      have ne : some key ≠ some "span" := fun same =>
        unknown ("span", .span) (by simp [Role.fields]) (Option.some.inj same).symm
      rw [pruned_object, pruned_object, List.map_append, List.map_append, List.map_cons,
        prunedMember_of_ne ne]
      rw [← typeOf?_pruned, List.map_append] at unknown
      exact .single (.add record unknown readable)
  | @member _ _ front back key value other inside =>
      rw [pruned_object, pruned_object, List.map_append, List.map_append, List.map_cons,
        List.map_cons]
      rw [← typeOf?_pruned, List.map_append, List.map_cons] at inside
      by_cases span : key = some "span"
      · subst span
        have role : Role.node.member (typeOf? (front.map prunedMember ++
            prunedMember (some "span", value) :: back.map prunedMember)) "span" = .span := rfl
        rw [Option.map_some, Option.getD_some, role] at inside
        rcases (Relation.reflGen_iff _ _ _).mp inside.keepMembers with same | inside
        · have alike : prunedMember (some "span", other) = prunedMember (some "span", value) :=
            congrArg (some "span", ·) same
          rw [alike]
        · exact .single (.member inside)
      · rw [prunedMember_of_ne span] at inside ⊢
        rw [prunedMember_of_ne span]
        exact .single (.member inside)
  | item inside => exact .single (.item inside)

/-- An unknown member inside a span is lost when the span is pruned. -/
theorem pruned_skipped {key : String} (unknown : ∀ field ∈ Role.span.fields none, field.1 ≠ key)
    (value : Document) (front back inner outer : List (Option String × Document)) :
    pruned (.object (front ++ (some "span", .object (inner ++ (some key, value) :: outer)) :: back)) =
      pruned (.object (front ++ (some "span", .object (inner ++ outer)) :: back)) := by
  have alike : prunedMember (some "span", .object (inner ++ (some key, value) :: outer)) =
      prunedMember (some "span", .object (inner ++ outer)) :=
    congrArg (some "span", ·) (keepMembers_add unknown value inner outer)
  rw [pruned_object, pruned_object, List.map_append, List.map_append, List.map_cons, List.map_cons,
    alike]

end

theorem ofText?_of_tokens {source : String} {tokens : List Token} {document : Document}
    (scanned : Token.ofChars? source.toList = some tokens)
    (built : ofTokens? tokens = some document) : ofText? source = some document := by
  rw [ofText?, scanned]
  exact built

end Document

/-! ### Trees of changed documents -/

namespace Node

/-- Documents that are edited in what is not read make the same node. -/
theorem ofDocument?_edited {document other : Document}
    (edit : Document.Edited Document.depthLimit .node document other) :
    ofDocument? document = ofDocument? other := by
  show (document.pruned.value? _).bind ofJson? = (other.pruned.value? _).bind ofJson?
  rcases (Relation.reflGen_iff _ _ _).mp edit.pruned with same | edit
  · rw [same]
  · have agrees := edit.agrees
    generalize document.pruned.value? _ = here at agrees ⊢
    generalize other.pruned.value? _ = there at agrees ⊢
    cases agrees with
    | none => rfl
    | some agrees => exact agrees.1

/-- One change leaves the tree of a document as it is, or again there is none. -/
theorem ofDocument?_rearranged {document other : Document}
    (change : Document.Rearranged document other) : ofDocument? document = ofDocument? other := by
  cases change with
  | edited edit => exact ofDocument?_edited edit
  | @skipped front back inner outer key value unknown =>
      have same := Document.pruned_skipped unknown value front back inner outer
      exact congrArg (fun document => (Document.value? _ document).bind ofJson?) same.symm

end Node

/-- Members of any objects may come in another order, and nodes, spans and template stretches may have
further members that can be read and are none of their fields: the text is read as the same tree, or
again as none. In the span of the outermost node a further member need not even be readable. -/
theorem rearranged_members_change_nothing {source changed : String} {document other : Document}
    (read : Document.ofText? source = some document) (reread : Document.ofText? changed = some other)
    (changes : Relation.ReflTransGen Document.Rearranged document other) :
    Node.ofText? source = Node.ofText? changed := by
  rw [Node.ofText?, Node.ofText?, read, reread, Option.bind_some, Option.bind_some]
  clear read reread
  induction changes with
  | refl => rfl
  | tail _ change ih => exact ih.trans (Node.ofDocument?_rearranged change)

namespace Sample

/-- A keyword with its span. -/
def tidyText : String :=
  "\x7b\"type\":\"ThisExpression\",\"span\":\x7b\"start\":0,\"end\":1\x7d\x7d"

/-- The same members in another order, with further ones among them. -/
def untidyText : String :=
  "\x7b\"span\":\x7b\"end\":1,\"x\":1e400,\"start\":0\x7d,\"x\":[],\"type\":\"ThisExpression\"\x7d"

/-- The member that tells the type. -/
def thisType : Option String × Document := (some "type", .text (some "ThisExpression"))

/-- The members of the span. -/
def startMember : Option String × Document := (some "start", .number (some (.whole 0)))

def stopMember : Option String × Document := (some "end", .number (some (.whole 1)))

theorem document_of_tidyText :
    Document.ofText? tidyText =
      some (.object [thisType, (some "span", .object [startMember, stopMember])]) := by
  have scanned : Token.ofChars? tidyText.toList = some
      [.openObject, .text (some "type"), .colon, .text (some "ThisExpression"), .comma,
        .text (some "span"), .colon, .openObject, .text (some "start"), .colon,
        .number (some (.whole 0)), .comma, .text (some "end"), .colon, .number (some (.whole 1)),
        .closeObject, .closeObject] := by
    decide +kernel
  exact Document.ofText?_of_tokens scanned rfl

theorem document_of_untidyText :
    Document.ofText? untidyText = some (.object
      [(some "span", .object [stopMember, (some "x", .number none), startMember]),
        (some "x", .array []), thisType]) := by
  have scanned : Token.ofChars? untidyText.toList = some
      [.openObject, .text (some "span"), .colon, .openObject, .text (some "end"), .colon,
        .number (some (.whole 1)), .comma, .text (some "x"), .colon, .number none, .comma,
        .text (some "start"), .colon, .number (some (.whole 0)), .closeObject, .comma,
        .text (some "x"), .colon, .openArray, .closeArray, .comma, .text (some "type"), .colon,
        .text (some "ThisExpression"), .closeObject] := by
    decide +kernel
  exact Document.ofText?_of_tokens scanned rfl

/-- First the span comes to the front and its end before its start, then both get a member. -/
theorem untidied : Relation.ReflTransGen Document.Rearranged
    (.object [thisType, (some "span", .object [startMember, stopMember])])
    (.object [(some "span", .object [stopMember, (some "x", .number none), startMember]),
      (some "x", .array []), thisType]) := by
  let turned : Option String × Document := (some "span", .object [stopMember, startMember])
  have front : Document.Rearranged
      (.object [thisType, (some "span", .object [startMember, stopMember])])
      (.object [(some "span", .object [startMember, stopMember]), thisType]) :=
    .edited (.reorder (.swap _ _ _))
  have inside : Document.Rearranged
      (.object ([] ++ (some "span", .object [startMember, stopMember]) :: [thisType]))
      (.object ([] ++ turned :: [thisType])) :=
    .edited (.member (.reorder (.swap _ _ _)))
  have added : Document.Rearranged (.object ([turned] ++ [thisType]))
      (.object ([turned] ++ (some "x", .array []) :: [thisType])) :=
    .edited (.add rfl (by decide) rfl)
  have skipped : Document.Rearranged
      (.object ([] ++ (some "span", .object ([stopMember] ++ [startMember])) ::
        [(some "x", .array []), thisType]))
      (.object ([] ++
        (some "span", .object ([stopMember] ++ (some "x", .number none) :: [startMember])) ::
        [(some "x", .array []), thisType])) :=
    .skipped (by decide)
  exact .tail (.tail (.tail (.single front) inside) added) skipped

end Sample

theorem untidy_text_is_read_alike :
    Node.ofText? Sample.tidyText = some ⟨⟨0, 1⟩, .leaf .this⟩ ∧
      Node.ofText? Sample.tidyText = Node.ofText? Sample.untidyText := by
  constructor
  · rw [Node.ofText?, Sample.document_of_tidyText]
    rfl
  · exact rearranged_members_change_nothing Sample.document_of_tidyText
      Sample.document_of_untidyText Sample.untidied

namespace Sample

/-- A keyword with nothing else. -/
def bareText : String := "\x7b\"type\":\"ThisExpression\"\x7d"

/-- A keyword with the text of a further member. -/
def widenedText (member : String) : String := "\x7b\"type\":\"ThisExpression\"," ++ member ++ "\x7d"

/-- Members that the grammar allows and that cannot be read: a number that exceeds every finite one, and
half of a surrogate pair in a value and in a key. Each has its text, its tokens and its document. -/
def unreadable : List (String × List Token × Option String × Document) :=
  [("\"x\":1e400", [.text (some "x"), .colon, .number none], some "x", .number none),
    ("\"x\":\"\\ud800\"", [.text (some "x"), .colon, .text none], some "x", .text none),
    ("\"\\ud800\":0", [.text none, .colon, .number (some (.whole 0))], none,
      .number (some (.whole 0)))]

theorem document_of_bareText : Document.ofText? bareText = some (.object [thisType]) := by
  have scanned : Token.ofChars? bareText.toList = some
      [.openObject, .text (some "type"), .colon, .text (some "ThisExpression"), .closeObject] := by
    decide +kernel
  exact Document.ofText?_of_tokens scanned rfl

theorem document_of_widenedText : ∀ member ∈ unreadable,
    Document.ofText? (widenedText member.1) = some (.object [thisType, member.2.2]) := by
  have scanned : ∀ member ∈ unreadable, Token.ofChars? (widenedText member.1).toList =
      some ([.openObject, .text (some "type"), .colon, .text (some "ThisExpression"), .comma] ++
        member.2.1 ++ [.closeObject]) := by
    decide +kernel
  intro member mem
  refine Document.ofText?_of_tokens (scanned member mem) ?_
  simp only [unreadable, List.mem_cons, List.not_mem_nil, or_false] at mem
  rcases mem with rfl | rfl | rfl <;> rfl

end Sample

/-- A further member that cannot be read keeps a tree from being read. -/
theorem unreadable_members_are_not_ignored :
    Document.ofText? Sample.bareText = some (.object ([Sample.thisType] ++ [])) ∧
      Node.ofText? Sample.bareText = some ⟨.synthetic, .leaf .this⟩ ∧
      (∀ field ∈ Role.node.fields (Document.typeOf? ([Sample.thisType] ++ [])), field.1 ≠ "x") ∧
      ∀ member ∈ Sample.unreadable,
        Document.ofText? (Sample.widenedText member.1) =
            some (.object ([Sample.thisType] ++ member.2.2 :: [])) ∧
          Node.ofText? (Sample.widenedText member.1) = none := by
  refine ⟨Sample.document_of_bareText, ?_, by decide, fun member mem => ?_⟩
  · rw [Node.ofText?, Sample.document_of_bareText]
    rfl
  · have document := Sample.document_of_widenedText member mem
    refine ⟨document, ?_⟩
    rw [Node.ofText?, document]
    simp only [Sample.unreadable, List.mem_cons, List.not_mem_nil, or_false] at mem
    rcases mem with rfl | rfl | rfl <;> rfl

end Imprint
