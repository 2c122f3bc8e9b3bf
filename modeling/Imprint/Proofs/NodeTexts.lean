/-
Module: Imprint.Proofs.NodeTexts
Purpose: Trees that are written as JSON texts and read again. The numbers of a text are those of numeric
  literals and the offsets of spans, and the outermost span has nothing in it that is skipped. So a tree
  comes back from its text, in either layout, if it is not too deep and all its numbers survive.
Main exports: Node.Contains, Node.survives_toJson, node_comes_back
-/
import Imprint.Proofs.JsonDocuments
import Imprint.Proofs.NodeFields

namespace Imprint

/-! ### Numbers -/

/-- The offsets of a span are all the numbers in it. -/
theorem Span.survives_members (span : Span) :
    ∀ number ∈ Json.memberNumbers span.members, number.Survives := by
  have offset (n : UInt64) : Number.Survives (.whole n.toNat) := Number.survives_natural n.toNat_lt
  unfold members
  split
  · intro number mem
    cases mem
  · intro number mem
    have offsets : number ∈ [Number.whole span.start.toNat, Number.whole span.stop.toNat] := mem
    rcases List.mem_pair.mp offsets with rfl | rfl
    · exact offset span.start
    · exact offset span.stop

namespace Node

theorem listToJson_eq_map (nodes : List Node) : listToJson nodes = nodes.map toJson := by
  induction nodes with
  | nil => rw [listToJson, List.map_nil]
  | cons node rest ih => rw [listToJson, ih, List.map_cons]

theorem numbers_slotsToJson (slots : List (Option Node)) :
    (slotsToJson slots).flatMap Json.numbers =
      (slots.flatMap Option.toList).flatMap fun node => node.toJson.numbers := by
  induction slots with
  | nil => simp [slotsToJson]
  | cons slot rest ih =>
      rw [List.flatMap_cons, List.flatMap_append, ← ih]
      cases slot with
      | none => simp [slotsToJson, Json.numbers]
      | some node => simp [slotsToJson]

theorem numbers_optionMember (key : String) (child : Option Node) :
    ((optionMember key child).flatMap fun member => member.2.numbers) =
      child.toList.flatMap fun node => node.toJson.numbers := by
  cases child <;> simp [optionMember]

/-- The numbers of a kind itself. -/
def ownNumbers : Kind Node → List Number
  | .leaf (.number value) => [.real value]
  | .template quasis _ => quasis.flatMap fun quasi => quasi.toJson.numbers
  | _ => []

/-- The numbers that are written for a kind are its own and those of its children. -/
theorem memberNumbers_kindMembers (kind : Kind Node) :
    Json.memberNumbers (kindMembers kind) =
      ownNumbers kind ++ kind.children.flatMap fun child => child.toJson.numbers := by
  cases kind with
  | leaf content => cases content <;> rfl
  | method home form key computed params body =>
      cases home <;>
        simp [kindMembers, Json.memberNumbers_eq, Json.itemNumbers_eq, Json.numbers,
          listToJson_eq_map, List.flatMap_map, ownNumbers, Kind.children]
  | _ =>
      simp [kindMembers, Json.memberNumbers_eq, Json.itemNumbers_eq, Json.numbers,
        listToJson_eq_map, List.flatMap_map, numbers_slotsToJson, numbers_optionMember, ownNumbers,
        Kind.children]

/-- A numeric literal in a tree has a value. -/
inductive Contains (value : Binary64) : Node → Prop where
  | here {span : Span} : Contains value ⟨span, .leaf (.number value)⟩
  | inside {node child : Node} (mem : child ∈ node.kind.children) (rest : Contains value child) :
      Contains value node

theorem eq_of_contains {value other : Binary64} {span : Span}
    (contains : Contains value ⟨span, .leaf (.number other)⟩) : value = other := by
  cases contains with
  | here => rfl
  | inside mem _ => cases mem

theorem survives_ownNumbers {node : Node} (survive : ∀ value, node.Contains value → value.Survives) :
    ∀ number ∈ ownNumbers node.kind, number.Survives := by
  obtain ⟨span, kind⟩ := node
  cases kind with
  | leaf content =>
      cases content with
      | number value =>
          intro number mem
          rw [List.mem_singleton.mp mem]
          exact Number.survives_real (survive value .here)
      | _ =>
          intro number mem
          cases mem
  | template quasis expressions =>
      intro number mem
      obtain ⟨quasi, -, mem⟩ := List.mem_flatMap.mp mem
      exact quasi.span.survives_members number mem
  | _ =>
      intro number mem
      cases mem

/-- Every number that is written for a tree survives if those of its numeric literals do. -/
theorem survives_toJson {node : Node} (survive : ∀ value, node.Contains value → value.Survives) :
    ∀ number ∈ node.toJson.numbers, number.Survives := by
  induction node using childInduction with
  | step node ih =>
      have numbers : node.toJson.numbers = ownNumbers node.kind ++
          ((node.kind.children.flatMap fun child => child.toJson.numbers) ++
            Json.memberNumbers node.span.members) := by
        rw [toJson_eq, members, Json.numbers, Json.memberNumbers_eq, List.flatMap_cons,
          List.flatMap_append, ← Json.memberNumbers_eq, ← Json.memberNumbers_eq,
          memberNumbers_kindMembers, List.append_assoc]
        rfl
      intro number mem
      rw [numbers] at mem
      rcases List.mem_append.mp mem with mem | mem
      · exact survives_ownNumbers survive number mem
      rcases List.mem_append.mp mem with mem | mem
      · obtain ⟨child, inside, mem⟩ := List.mem_flatMap.mp mem
        exact ih child inside (fun value contains => survive value (.inside inside contains)) number
          mem
      · exact node.span.survives_members number mem

end Node

/-! ### Texts -/

/-- Members are left as they are if those of the key are. -/
theorem Document.mapMember_document {key : String} {change : Document → Document}
    {members : List (String × Json)}
    (fixed : ∀ member ∈ members, member.1 = key → change member.2.document = member.2.document) :
    (Json.object members).document.mapMember key change = (Json.object members).document := by
  rw [Json.document, mapMember, Json.memberDocuments_eq_map, List.map_map]
  apply congrArg
  apply List.map_congr_left
  intro member mem
  show (some member.1, if some member.1 = some key then change member.2.document
    else member.2.document) = (some member.1, member.2.document)
  split
  · rename_i same
    rw [fixed member mem (Option.some.inj same)]
  · rfl

/-- Nothing in a span is skipped. -/
theorem Span.keepMembers_document {span : Span} {member : String × Json}
    (mem : member ∈ span.members) :
    Document.keepMembers ["start", "end"] member.2.document = member.2.document := by
  unfold members at mem
  split at mem
  · cases mem
  · rw [List.mem_singleton.mp mem]
    rfl

namespace Node

/-- Nothing of the outermost span is skipped. -/
theorem mapMember_document (node : Node) :
    node.toJson.document.mapMember "span" (Document.keepMembers ["start", "end"]) =
      node.toJson.document := by
  rw [toJson_eq]
  apply Document.mapMember_document
  intro member mem span
  rcases List.mem_cons.mp mem with rfl | mem
  · have ne : "type" ≠ "span" := by decide
    exact absurd span ne
  rcases List.mem_append.mp mem with mem | mem
  · exact absurd span (key_of_mem_kindMembers member mem).2
  · exact Span.keepMembers_document mem

/-- The document of a tree is read as that tree if it is not too deep. -/
theorem ofDocument?_document {node : Node} (shallow : node.toJson.depth ≤ Document.depthLimit) :
    ofDocument? node.toJson.document = some node := by
  rw [ofDocument?, mapMember_document,
    Document.value?_document node.toJson Document.depthLimit shallow]
  exact node.comesBack

end Node

/-- A tree comes back from its text on one line and from its indented text, if no more arrays and
objects stand inside each other than the reader allows and all numeric literals survive. -/
theorem node_comes_back {node : Node} (shallow : node.toJson.depth ≤ Document.depthLimit)
    (survive : ∀ value, node.Contains value → value.Survives) :
    Node.ofText? node.compactText = some node ∧ Node.ofText? node.prettyText = some node := by
  have numbers := Node.survives_toJson survive
  have same := Node.ofDocument?_document shallow
  constructor
  · rw [Node.ofText?, Node.compactText, Json.documentOf_compact numbers]
    exact same
  · rw [Node.ofText?, Node.prettyText, Json.documentOf_pretty numbers]
    exact same

namespace Sample

/-- The tree of a function without a name that holds `return` and `[, 3.25, "\"é\n"]`, partly with
spans. -/
def printed : Node :=
  ⟨⟨0, 18446744073709551615⟩, .functionExpression none [] ⟨.synthetic, .block [
    ⟨⟨12, 18⟩, .returnStatement none⟩,
    ⟨.synthetic, .array [none,
      some ⟨⟨22, 26⟩, .leaf (.number (Binary64.ofRatio false 13 4))⟩,
      some ⟨⟨28, 33⟩, .leaf (.text "\"é\n")⟩]⟩]⟩⟩

theorem survives_of_printed : ∀ value, printed.Contains value → value.Survives := by
  intro value contains
  cases contains with
  | inside mem contains =>
    obtain rfl := List.mem_singleton.mp mem
    cases contains with
    | inside mem contains =>
      rcases List.mem_pair.mp mem with rfl | rfl
      · cases contains with
        | inside mem _ => cases mem
      · cases contains with
        | inside mem contains =>
          rcases List.mem_pair.mp mem with rfl | rfl
          · rw [Node.eq_of_contains contains]
            decide +kernel
          · cases contains with
            | inside mem _ => cases mem

end Sample

theorem printed_comes_back :
    Sample.printed.toJson.depth ≤ Document.depthLimit ∧
      (∀ value, Sample.printed.Contains value → value.Survives) ∧
      Node.ofText? Sample.printed.compactText = some Sample.printed ∧
      Node.ofText? Sample.printed.prettyText = some Sample.printed :=
  ⟨by decide +kernel, Sample.survives_of_printed,
    node_comes_back (by decide +kernel) Sample.survives_of_printed⟩

end Imprint
