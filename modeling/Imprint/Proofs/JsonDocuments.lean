/-
Module: Imprint.Proofs.JsonDocuments
Purpose: Printed JSON read again. The tokens of a value are those of the document that denotes it, and
  that document has the value unless it is too deep. So a text in either layout has the value that was
  printed, if all its numbers survive.
Main exports: Json.document, Json.depth, Document.ofTokens?_tokens, Document.value?_document,
  Json.documentOf_compact, Json.documentOf_pretty
-/
import Imprint.Proofs.JsonScanning
import Imprint.Json.Document

namespace Imprint

namespace Json

mutual

/-- The document of a value. -/
def document : Json → Document
  | .null => .null
  | .bool value => .bool value
  | .number value => .number (some value)
  | .text content => .text (some content)
  | .array items => .array (itemDocuments items)
  | .object members => .object (memberDocuments members)

/-- The documents of items. -/
def itemDocuments : List Json → List Document
  | [] => []
  | item :: rest => document item :: itemDocuments rest

/-- The documents of members. -/
def memberDocuments : List (String × Json) → List (Option String × Document)
  | [] => []
  | (key, value) :: rest => (some key, document value) :: memberDocuments rest

end

theorem memberDocuments_eq_map (members : List (String × Json)) :
    memberDocuments members = members.map fun member => (some member.1, member.2.document) := by
  induction members with
  | nil => rfl
  | cons member rest ih => rw [memberDocuments, ih, List.map_cons]

mutual

/-- How many arrays and objects stand inside each other in a value. -/
def depth : Json → Nat
  | .array items => itemDepth items + 1
  | .object members => memberDepth members + 1
  | _ => 0

/-- The depth of the deepest item. -/
def itemDepth : List Json → Nat
  | [] => 0
  | item :: rest => max (depth item) (itemDepth rest)

/-- The depth of the deepest member. -/
def memberDepth : List (String × Json) → Nat
  | [] => 0
  | (_, value) :: rest => max (depth value) (memberDepth rest)

end

end Json

namespace Document

open Json

/-! ### From tokens to documents -/

theorem foldlM_cons {stage next : Stage} {token : Token} (step : step? stage token = some next)
    (rest : List Token) : (token :: rest).foldlM step? stage = rest.foldlM step? next := by
  rw [List.foldlM_cons, step]
  rfl

theorem foldlM_append {stage next : Stage} {tokens : List Token}
    (steps : tokens.foldlM step? stage = some next) (rest : List Token) :
    (tokens ++ rest).foldlM step? stage = rest.foldlM step? next := by
  rw [List.foldlM_append, steps]
  rfl

theorem foldlM_single (stage : Stage) (token : Token) :
    [token].foldlM step? stage = step? stage token := by
  rw [List.foldlM_cons]
  cases step? stage token <;> rfl

/-- A first item is read like any other one. -/
theorem step?_firstItem {token : Token} (ne : token ≠ .closeArray) (frames : List Frame) :
    step? (.firstItem frames) token = step? (.value frames) token := by
  cases token <;> first | rfl | exact absurd rfl ne

/-- No value begins with a closing bracket. -/
theorem exists_first_tokens (value : Json) :
    ∃ token rest, value.tokens = token :: rest ∧ token ≠ .closeArray := by
  cases value with
  | array items => exact ⟨.openArray, _, rfl, by decide⟩
  | object members => exact ⟨.openObject, _, rfl, by decide⟩
  | _ => exact ⟨_, [], rfl, fun eq => by cases eq⟩

theorem foldlM_firstItem (item : Json) (rest : List Json) (frames : List Frame) :
    (itemTokens (item :: rest)).foldlM step? (.firstItem frames) =
      (itemTokens (item :: rest)).foldlM step? (.value frames) := by
  obtain ⟨token, more, eq, ne⟩ := exists_first_tokens item
  have first : ∃ others, itemTokens (item :: rest) = token :: others := by
    cases rest with
    | nil => exact ⟨more, eq⟩
    | cons next others => exact ⟨_, congrArg (· ++ .comma :: itemTokens (next :: others)) eq⟩
  obtain ⟨others, eq⟩ := first
  rw [eq, List.foldlM_cons, List.foldlM_cons, step?_firstItem ne]

/-- A first key is read like any other one. -/
theorem foldlM_firstKey (member : String × Json) (rest : List (String × Json))
    (reversed : List (Option String × Document)) (frames : List Frame) :
    (memberTokens (member :: rest)).foldlM step? (.firstKey (.object reversed :: frames)) =
      (memberTokens (member :: rest)).foldlM step? (.key reversed frames) := by
  cases rest <;> rfl

mutual

/-- The tokens of a value complete its document. -/
theorem foldlM_tokens (frames : List Frame) : (value : Json) →
    value.tokens.foldlM step? (.value frames) = complete? value.document frames
  | .null => foldlM_single (.value frames) .null
  | .bool value => foldlM_single (.value frames) (.bool value)
  | .number value => foldlM_single (.value frames) (.number (some value))
  | .text content => foldlM_single (.value frames) (.text (some content))
  | .array items => by
      have inside := foldlM_itemTokens [] frames items
      have opened : step? (.value frames) .openArray = some (.firstItem (.array [] :: frames)) := rfl
      rw [tokens, foldlM_cons opened]
      cases items with
      | nil => exact foldlM_single (.firstItem (.array [] :: frames)) .closeArray
      | cons item rest =>
          rw [foldlM_append ((foldlM_firstItem item rest _).trans (inside (List.cons_ne_nil _ _))),
            foldlM_single, List.append_nil]
          show complete? (.array (itemDocuments (item :: rest)).reverse.reverse) frames = _
          rw [List.reverse_reverse, document]
  | .object members => by
      have inside := foldlM_memberTokens [] frames members
      have opened : step? (.value frames) .openObject =
          some (.firstKey (.object [] :: frames)) := rfl
      rw [tokens, foldlM_cons opened]
      cases members with
      | nil => exact foldlM_single (.firstKey (.object [] :: frames)) .closeObject
      | cons member rest =>
          rw [foldlM_append
              ((foldlM_firstKey member rest [] frames).trans (inside (List.cons_ne_nil _ _))),
            foldlM_single, List.append_nil]
          show complete? (.object (memberDocuments (member :: rest)).reverse.reverse) frames = _
          rw [List.reverse_reverse, document]

/-- The tokens of items put their documents into the open array. -/
theorem foldlM_itemTokens (reversed : List Document) (frames : List Frame) :
    (items : List Json) → items ≠ [] →
    (itemTokens items).foldlM step? (.value (.array reversed :: frames)) =
      some (.next (.array ((itemDocuments items).reverse ++ reversed) :: frames))
  | [], nonempty => absurd rfl nonempty
  | [item], _ => foldlM_tokens (.array reversed :: frames) item
  | item :: next :: rest, _ => by
      have put : item.tokens.foldlM step? (.value (.array reversed :: frames)) =
          some (.next (.array (item.document :: reversed) :: frames)) :=
        foldlM_tokens (.array reversed :: frames) item
      have separated : step? (.next (.array (item.document :: reversed) :: frames)) .comma =
          some (.value (.array (item.document :: reversed) :: frames)) := rfl
      have others := foldlM_itemTokens (item.document :: reversed) frames (next :: rest)
        (List.cons_ne_nil _ _)
      show (item.tokens ++ .comma :: itemTokens (next :: rest)).foldlM step? _ = _
      rw [foldlM_append put, foldlM_cons separated, others]
      simp [itemDocuments]

/-- The tokens of members put their documents into the open object. -/
theorem foldlM_memberTokens (reversed : List (Option String × Document)) (frames : List Frame) :
    (members : List (String × Json)) → members ≠ [] →
    (memberTokens members).foldlM step? (.key reversed frames) =
      some (.next (.object ((memberDocuments members).reverse ++ reversed) :: frames))
  | [], nonempty => absurd rfl nonempty
  | [(key, value)], _ => foldlM_tokens (.member reversed (some key) :: frames) value
  | (key, value) :: next :: rest, _ => by
      have put : value.tokens.foldlM step? (.value (.member reversed (some key) :: frames)) =
          some (.next (.object ((some key, value.document) :: reversed) :: frames)) :=
        foldlM_tokens (.member reversed (some key) :: frames) value
      have separated :
          step? (.next (.object ((some key, value.document) :: reversed) :: frames)) .comma =
            some (.key ((some key, value.document) :: reversed) frames) := rfl
      have others := foldlM_memberTokens ((some key, value.document) :: reversed) frames
        (next :: rest) (List.cons_ne_nil _ _)
      show (value.tokens ++ .comma :: memberTokens (next :: rest)).foldlM step?
        (.value (.member reversed (some key) :: frames)) = _
      rw [foldlM_append put, foldlM_cons separated, others]
      simp [memberDocuments]

end

/-- The tokens of a value are those of its document. -/
theorem ofTokens?_tokens (value : Json) : ofTokens? value.tokens = some value.document := by
  rw [ofTokens?, foldlM_tokens]
  rfl

/-- The document of a text that spells the tokens of a value. -/
theorem ofText?_of_spells {source : String} {value : Json}
    (spells : Token.Spells source.toList value.tokens) : ofText? source = some value.document := by
  rw [ofText?, Token.ofChars?_of_spells spells]
  exact ofTokens?_tokens value

/-! ### From documents to values -/

mutual

/-- The document of a value that is not too deep has that value. -/
theorem value?_document : (value : Json) → (limit : Nat) → value.depth ≤ limit →
    value? limit value.document = some value
  | .null, _, _ => by rw [document, value?]
  | .bool _, _, _ => by rw [document, value?]
  | .number _, _, _ => by rw [document, value?]; rfl
  | .text _, _, _ => by rw [document, value?]; rfl
  | .array items, limit, shallow => by
      cases limit with
      | zero => exact absurd shallow (Nat.not_succ_le_zero _)
      | succ limit =>
          rw [document, value?, values?_documents items limit (Nat.le_of_succ_le_succ shallow)]
          rfl
  | .object members, limit, shallow => by
      cases limit with
      | zero => exact absurd shallow (Nat.not_succ_le_zero _)
      | succ limit =>
          rw [document, value?,
            memberValues?_documents members limit (Nat.le_of_succ_le_succ shallow)]
          rfl

theorem values?_documents : (items : List Json) → (limit : Nat) → itemDepth items ≤ limit →
    values? limit (itemDocuments items) = some items
  | [], _, _ => by rw [itemDocuments, values?]
  | item :: rest, limit, shallow => by
      obtain ⟨head, tail⟩ := Nat.max_le.mp shallow
      rw [itemDocuments, values?, value?_document item limit head,
        values?_documents rest limit tail]

theorem memberValues?_documents : (members : List (String × Json)) → (limit : Nat) →
    memberDepth members ≤ limit → memberValues? limit (memberDocuments members) = some members
  | [], _, _ => by rw [memberDocuments, memberValues?]
  | (key, value) :: rest, limit, shallow => by
      obtain ⟨head, tail⟩ := Nat.max_le.mp shallow
      simp only [memberDocuments, memberValues?, value?_document value limit head,
        memberValues?_documents rest limit tail]

end

end Document

namespace Json

variable {value : Json}

/-- The document of a text on one line. -/
theorem documentOf_compact (survive : ∀ number ∈ value.numbers, number.Survives) :
    Document.ofText? value.compact = some value.document :=
  Document.ofText?_of_spells (spells_compact value survive)

/-- The document of an indented text. -/
theorem documentOf_pretty (survive : ∀ number ∈ value.numbers, number.Survives) :
    Document.ofText? value.pretty = some value.document :=
  Document.ofText?_of_spells (spells_indented 0 value survive)

end Json

end Imprint
