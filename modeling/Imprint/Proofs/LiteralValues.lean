/-
Module: Imprint.Proofs.LiteralValues
Purpose: Values that are written as literals and read back. Every value but undefined has a literal, and
  what comes back from it is the value without its undefined items and entries, in which values of
  other types have become undefined and the milliseconds of dates have been rounded to a floating point
  number. Values from JSON come back as they were, and so does everything else that none of this
  touches. Trees are left aside: they can be written out in any way.
Main exports: Value.clean, Value.parts, Value.ofLiteral?_of_literal?, Value.clean_of_exact,
  literals_fold_back
-/
import Imprint.Proofs.SecondRuns
import Imprint.Proofs.WholeNumbers

namespace Imprint

namespace Value

/-! ### What comes back -/

mutual

/-- What comes back from the literal of a value. -/
def clean : Value → Value
  | .array items => .array (cleanItems items)
  | .object entries => .object (cleanEntries entries)
  | .date millis => .date (millisOf (Binary64.ofInt millis.toInt))
  | .unsupported _ => .undefined
  | value => value

/-- What comes back of the items of an array: those that are undefined are gone. -/
def cleanItems : List Value → List Value
  | [] => []
  | .undefined :: rest => cleanItems rest
  | item :: rest => clean item :: cleanItems rest

/-- What comes back of the entries of an object: those that are undefined are gone. -/
def cleanEntries : List (String × Value) → List (String × Value)
  | [] => []
  | (_, .undefined) :: rest => cleanEntries rest
  | (key, value) :: rest => (key, clean value) :: cleanEntries rest

end

/-- Items that are defined are cleaned one by one. -/
theorem cleanItems_cons {item : Value} (defined : item ≠ .undefined) (rest : List Value) :
    cleanItems (item :: rest) = clean item :: cleanItems rest := by
  cases item <;> first | rfl | exact absurd rfl defined

/-- So are entries with a value that is defined. -/
theorem cleanEntries_cons {value : Value} (defined : value ≠ .undefined) (key : String)
    (rest : List (String × Value)) :
    cleanEntries ((key, value) :: rest) = (key, clean value) :: cleanEntries rest := by
  cases value <;> first | rfl | exact absurd rfl defined

mutual

/-- A value and all the values inside it. -/
def parts : Value → List Value
  | .array items => .array items :: partsOfItems items
  | .object entries => .object entries :: partsOfEntries entries
  | value => [value]

/-- All the values inside the items of an array. -/
def partsOfItems : List Value → List Value
  | [] => []
  | item :: rest => parts item ++ partsOfItems rest

/-- All the values inside the entries of an object. -/
def partsOfEntries : List (String × Value) → List Value
  | [] => []
  | (_, value) :: rest => parts value ++ partsOfEntries rest

end

theorem mem_parts_self (value : Value) : value ∈ value.parts := by
  cases value <;> exact List.mem_cons_self

theorem partsOfItems_eq (items : List Value) : partsOfItems items = items.flatMap parts := by
  induction items with
  | nil => rfl
  | cons item rest ih => rw [partsOfItems, ih, List.flatMap_cons]

theorem partsOfEntries_eq (entries : List (String × Value)) :
    partsOfEntries entries = entries.flatMap fun entry => parts entry.2 := by
  induction entries with
  | nil => rfl
  | cons entry rest ih => rw [partsOfEntries, ih, List.flatMap_cons]

/-- There is no tree in a value, at any depth. -/
def IsTreeless (value : Value) : Prop := ∀ root, .tree root ∉ value.parts

/-- Nothing about a value itself gets lost: it is not undefined, of another type or a tree, and if it is a
date, then its milliseconds are a floating point number. -/
def IsExact : Value → Prop
  | .undefined => False
  | .unsupported _ => False
  | .tree _ => False
  | .date millis => millis.toInt.natAbs ≤ 2 ^ 53
  | _ => True

/-! ### From values to literals and back -/

/-- Undefined alone has no literal. -/
theorem literal?_eq_none {value : Value} : value.literal? = none ↔ value = .undefined := by
  cases value <;> simp [literal?]

/-- A key comes back from its literal. -/
theorem keyOf?_keyLiteral (key : String) : keyOf? (keyLiteral key) = some key := by
  unfold keyLiteral
  split <;> rfl

mutual

/-- A literal denotes what comes back from the value that it was made of. -/
theorem ofLiteral?_of_literal? : ∀ (value : Value), value.IsTreeless →
    ∀ literal, literal? value = some literal → ofLiteral? literal = some value.clean
  | .undefined, _, _, found => by cases found
  | .null, _, _, rfl => rfl
  | .bool _, _, _, rfl => rfl
  | .number _, _, _, rfl => rfl
  | .text _, _, _, rfl => rfl
  | .array items, treeless, literal, found => by
      have slots := ofSlots?_itemLiterals items
        fun root mem => treeless root (List.mem_cons_of_mem _ mem)
      cases found
      rw [Node.array, Node.generated, ofLiteral?, slots]
      rfl
  | .object entries, treeless, literal, found => by
      have properties := ofProperties?_entryLiterals entries
        fun root mem => treeless root (List.mem_cons_of_mem _ mem)
      cases found
      rw [Node.object, Node.generated, ofLiteral?, properties]
      rfl
  | .regExp _ _, _, _, rfl => rfl
  | .date _, _, _, rfl => rfl
  | .function _, _, _, rfl => rfl
  | .tree root, treeless, _, _ => absurd (mem_parts_self _) (treeless root)
  | .unsupported _, _, _, rfl => rfl

/-- The items that have a literal come back in their order. -/
theorem ofSlots?_itemLiterals : ∀ (items : List Value),
    (∀ root, .tree root ∉ partsOfItems items) →
    ofSlots? (itemLiterals items) = some (cleanItems items)
  | [], _ => rfl
  | item :: rest, treeless => by
      have others := ofSlots?_itemLiterals rest
        fun root mem => treeless root (List.mem_append_right _ mem)
      cases found : literal? item with
      | none =>
          obtain rfl := literal?_eq_none.mp found
          exact others
      | some literal =>
          have defined : item ≠ .undefined := by
            rintro rfl
            cases found
          have back := ofLiteral?_of_literal? item
            (fun root mem => treeless root (List.mem_append_left _ mem)) literal found
          rw [itemLiterals, found, cleanItems_cons defined]
          dsimp only
          rw [ofSlots?, back, others]

/-- The entries whose values have a literal come back in their order, with their keys. -/
theorem ofProperties?_entryLiterals : ∀ (entries : List (String × Value)),
    (∀ root, .tree root ∉ partsOfEntries entries) →
    ofProperties? (entryLiterals entries) = some (cleanEntries entries)
  | [], _ => rfl
  | (key, value) :: rest, treeless => by
      have others := ofProperties?_entryLiterals rest
        fun root mem => treeless root (List.mem_append_right _ mem)
      cases found : literal? value with
      | none =>
          obtain rfl := literal?_eq_none.mp found
          exact others
      | some literal =>
          have defined : value ≠ .undefined := by
            rintro rfl
            cases found
          have back := ofLiteral?_of_literal? value
            (fun root mem => treeless root (List.mem_append_left _ mem)) literal found
          rw [entryLiterals, found, cleanEntries_cons defined]
          dsimp only [Node.property, Node.generated]
          rw [ofProperties?, keyOf?_keyLiteral, back, others]

end

/-! ### Values that come back as they were -/

/-- The milliseconds of a date are those of a floating point number up to 2⁵³ in either direction. -/
theorem millisOf_ofInt {millis : Int64} (short : millis.toInt.natAbs ≤ 2 ^ 53) :
    millisOf (Binary64.ofInt millis.toInt) = millis := by
  have above : max Int64.minValue.toInt (min Int64.maxValue.toInt millis.toInt) = millis.toInt := by
    rw [Int.min_eq_right millis.toInt_le, Int.max_eq_right millis.minValue_le_toInt]
  rw [millisOf, Binary64.toInt?_ofInt short]
  dsimp only
  rw [above, Int64.ofInt_toInt]

/-- What is exact is defined. -/
theorem IsExact.defined {value : Value} (exact : value.IsExact) : value ≠ .undefined := by
  rintro rfl
  exact exact

mutual

/-- A value in which everything is exact comes back as it was. -/
theorem clean_of_exact : ∀ (value : Value), (∀ part ∈ value.parts, part.IsExact) →
    value.clean = value
  | .undefined, _ => rfl
  | .null, _ => rfl
  | .bool _, _ => rfl
  | .number _, _ => rfl
  | .text _, _ => rfl
  | .array items, exact => by
      have inside := cleanItems_of_exact items fun part mem => exact part (List.mem_cons_of_mem _ mem)
      rw [clean, inside]
  | .object entries, exact => by
      have inside := cleanEntries_of_exact entries
        fun part mem => exact part (List.mem_cons_of_mem _ mem)
      rw [clean, inside]
  | .regExp _ _, _ => rfl
  | .date millis, exact => by
      have short : millis.toInt.natAbs ≤ 2 ^ 53 := exact _ (mem_parts_self _)
      rw [clean, millisOf_ofInt short]
  | .function _, _ => rfl
  | .tree _, _ => rfl
  | .unsupported typeName, exact => (exact (.unsupported typeName) (mem_parts_self _)).elim

theorem cleanItems_of_exact : ∀ (items : List Value),
    (∀ part ∈ partsOfItems items, part.IsExact) → cleanItems items = items
  | [], _ => rfl
  | item :: rest, exact => by
      have here := clean_of_exact item fun part mem => exact part (List.mem_append_left _ mem)
      have others := cleanItems_of_exact rest fun part mem => exact part (List.mem_append_right _ mem)
      have defined := (exact item (List.mem_append_left _ (mem_parts_self item))).defined
      rw [cleanItems_cons defined, here, others]

theorem cleanEntries_of_exact : ∀ (entries : List (String × Value)),
    (∀ part ∈ partsOfEntries entries, part.IsExact) → cleanEntries entries = entries
  | [], _ => rfl
  | (key, value) :: rest, exact => by
      have here := clean_of_exact value fun part mem => exact part (List.mem_append_left _ mem)
      have others := cleanEntries_of_exact rest
        fun part mem => exact part (List.mem_append_right _ mem)
      have defined := (exact value (List.mem_append_left _ (mem_parts_self value))).defined
      rw [cleanEntries_cons defined, here, others]

end

/-- What is exact in all of its parts has no tree in it. -/
theorem isTreeless_of_exact {value : Value} (exact : ∀ part ∈ value.parts, part.IsExact) :
    value.IsTreeless :=
  fun root mem => exact (.tree root) mem

/-- Data is exact through and through. -/
theorem IsPlain.exact {value : Value} (plain : value.IsPlain) : ∀ part ∈ value.parts, part.IsExact := by
  induction plain with
  | @array items _ ih =>
      intro part mem
      rcases List.mem_cons.mp mem with rfl | inside
      · trivial
      · rw [partsOfItems_eq] at inside
        obtain ⟨item, among, within⟩ := List.mem_flatMap.mp inside
        exact ih item among part within
  | @object entries _ ih =>
      intro part mem
      rcases List.mem_cons.mp mem with rfl | inside
      · trivial
      · rw [partsOfEntries_eq] at inside
        obtain ⟨entry, among, within⟩ := List.mem_flatMap.mp inside
        exact ih entry among part within
  | _ =>
      intro part mem
      rw [List.mem_singleton.mp mem]
      trivial

/-- What comes back from the literal of a value, if it has one. -/
theorem ofLiteral?_literal {value : Value} (treeless : value.IsTreeless)
    (defined : value ≠ .undefined) : value.literal?.bind ofLiteral? = some value.clean := by
  cases found : value.literal? with
  | none => exact absurd (literal?_eq_none.mp found) defined
  | some literal => exact ofLiteral?_of_literal? value treeless literal found

/-- A value that is exact in all of its parts comes back from its literal as it was. -/
theorem ofLiteral?_literal_of_exact {value : Value} (exact : ∀ part ∈ value.parts, part.IsExact) :
    value.literal?.bind ofLiteral? = some value := by
  have defined := (exact value (mem_parts_self value)).defined
  rw [ofLiteral?_literal (isTreeless_of_exact exact) defined, clean_of_exact value exact]

end Value

/-- A value without trees has a literal unless it is undefined, and the literal denotes the value that
is left when undefined items and entries are dropped, values of other types are made undefined and
dates are rounded. So every value from JSON comes back as it was, and so does every value made of
nothing but nulls, booleans, numbers, texts, arrays, objects, regular expressions, functions, and dates
of at most 2⁵³ milliseconds. -/
theorem literals_fold_back :
    (∀ value : Value, value.IsTreeless →
        (value.literal? = none ↔ value = .undefined) ∧
          (value ≠ .undefined → value.literal?.bind Value.ofLiteral? = some value.clean)) ∧
      (∀ json, (Value.ofJson json).literal?.bind Value.ofLiteral? = some (Value.ofJson json)) ∧
      ∀ value : Value, (∀ part ∈ value.parts, part.IsExact) →
        value.literal?.bind Value.ofLiteral? = some value := by
  refine ⟨?_, ?_, ?_⟩
  · intro value treeless
    exact ⟨Value.literal?_eq_none, Value.ofLiteral?_literal treeless⟩
  · intro json
    exact Value.ofLiteral?_literal_of_exact (Value.isPlain_ofJson json).exact
  · intro value exact
    exact Value.ofLiteral?_literal_of_exact exact

namespace Sample

/-- An object with a repeated key, undefined parts, and a date that is no floating point number. -/
def patchy : Value :=
  .object [("a b", .array [.undefined, .unsupported "symbol", .date 9007199254740993]),
    ("gone", .undefined), ("a b", .regExp "x" "g"),
    ("c", .object [("gone", .undefined), ("f", .function "() => 1")])]

/-- A date of the last millisecond up to which every one is a floating point number. -/
def exactDate : Value := .array [.date (-9007199254740992), .null]

end Sample

/-- Parts that are undefined are dropped and the date is rounded; the date that can be written exactly
comes back. -/
theorem sample_folds_back :
    Sample.patchy.literal?.bind Value.ofLiteral? =
        some (.object [("a b", .array [.undefined, .date 9007199254740992]),
          ("a b", .regExp "x" "g"), ("c", .object [("f", .function "() => 1")])]) ∧
      Sample.exactDate.literal?.bind Value.ofLiteral? = some Sample.exactDate := by
  constructor
  · have treeless : Sample.patchy.IsTreeless := by
      intro root mem
      simp [Sample.patchy, Value.parts, Value.partsOfItems, Value.partsOfEntries] at mem
    have rounded : Value.millisOf (Binary64.ofInt (9007199254740993 : Int64).toInt) =
        9007199254740992 := by
      decide +kernel
    rw [(literals_fold_back.1 Sample.patchy treeless).2 (by simp [Sample.patchy])]
    simp only [Sample.patchy, Value.clean, Value.cleanItems, Value.cleanEntries, rounded]
  · apply literals_fold_back.2.2
    intro part mem
    simp [Sample.exactDate, Value.parts, Value.partsOfItems] at mem
    rcases mem with rfl | rfl | rfl
    · trivial
    · show Int.natAbs _ ≤ 2 ^ 53
      decide
    · trivial

end Imprint
