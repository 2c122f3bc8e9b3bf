/-
Module: Imprint.Proofs.BareKeys
Purpose: The keys of object literals that stand without quotes. All their characters are letters in the
  widest sense, numbers of any kind, underscores and dollar signs. That is more than an identifier name
  allows: enclosed letters and most numbers that are no decimal digits belong to none, and a vowel sign
  cannot come first. A bare key without such characters is an identifier name.
Main exports: Text.isStray, Text.onlyContinues, Text.isEcmaName_iff, bare_keys_are_names_unless_stray
-/
import Imprint.Text.NameCharacter
import Imprint.Value
import Mathlib.Data.List.Forall2

namespace Imprint

namespace Text

/-! ### Comparing tables -/

namespace CharacterRange

/-- What is left of one range in front of another. -/
def front (range : CharacterRange) (first last : Nat) : List CharacterRange :=
  if first < range.1 then [(first, min last (range.1 - 1))] else []

/-- What is left of ranges in ascending order in front of another range and behind it. -/
def outside (range : CharacterRange) : List CharacterRange → List CharacterRange × List CharacterRange
  | [] => ([], [])
  | (first, last) :: rest =>
      if range.2 < first then ([], (first, last) :: rest)
      else if range.2 < last then (front range first last, (range.2 + 1, last) :: rest)
      else (front range first last ++ (outside range rest).1, (outside range rest).2)

/-- What is left of a table outside the ranges of another one, both in ascending order. -/
def remainder : List CharacterRange → List CharacterRange → List CharacterRange
  | [], ranges => ranges
  | range :: others, ranges =>
      (outside range ranges).1 ++ remainder others (outside range ranges).2

/-- No range of one table meets a range of the other. -/
def areApart (first second : List CharacterRange) : Bool :=
  first.all fun range => second.all fun other => range.2 < other.1 || other.2 < range.1

variable {c : Char}

/-- Ranges cover a character when the first one does or the rest do. -/
theorem covers_cons {first last : Nat} {rest : List CharacterRange} :
    covers ((first, last) :: rest) c = true ↔
      (first ≤ c.toNat ∧ c.toNat ≤ last) ∨ covers rest c = true := by
  simp [covers]

/-- Ranges and more ranges cover what either of them cover. -/
theorem covers_append {first second : List CharacterRange} :
    covers (first ++ second) c = true ↔ covers first c = true ∨ covers second c = true := by
  simp [covers]

/-- What lies in a range below another one is covered by its front. -/
theorem covers_front {range : CharacterRange} {first last : Nat} (above : first ≤ c.toNat)
    (below : c.toNat < range.1) (within : c.toNat ≤ last) :
    covers (front range first last) c = true := by
  rw [front, if_pos (Nat.lt_of_le_of_lt above below), covers_cons]
  exact .inl ⟨above, by omega⟩

/-- What some ranges cover lies inside a given range or in what is left of them outside. -/
theorem within_or_covers_outside (range : CharacterRange) {ranges : List CharacterRange}
    (covered : covers ranges c = true) :
    (range.1 ≤ c.toNat ∧ c.toNat ≤ range.2) ∨ covers (outside range ranges).1 c = true ∨
      covers (outside range ranges).2 c = true := by
  induction ranges with
  | nil => cases covered
  | cons head rest ih =>
      obtain ⟨first, last⟩ := head
      rw [covers_cons] at covered
      by_cases inside : range.1 ≤ c.toNat ∧ c.toNat ≤ range.2
      · exact .inl inside
      right
      rw [outside]
      split
      · exact .inr (covers_cons.mpr covered)
      split
      · rw [covers_cons]
        rcases covered with ⟨above, within⟩ | covered
        · by_cases below : c.toNat < range.1
          · exact .inl (covers_front above below within)
          · exact .inr (.inl ⟨by omega, within⟩)
        · exact .inr (.inr covered)
      · rw [covers_append, or_assoc]
        rcases covered with ⟨above, within⟩ | covered
        · exact .inl (covers_front above (by omega) within)
        · exact .inr ((ih covered).resolve_left inside)

/-- A character of one table is one of another table or of what is left outside it. -/
theorem covers_or_remainder (others : List CharacterRange) {ranges : List CharacterRange}
    (covered : covers ranges c = true) :
    covers others c = true ∨ covers (remainder others ranges) c = true := by
  induction others generalizing ranges with
  | nil => exact .inr covered
  | cons range rest ih =>
      obtain ⟨first, last⟩ := range
      rw [covers_cons, remainder, covers_append]
      rcases within_or_covers_outside (first, last) covered with inside | before | behind
      · exact .inl (.inl inside)
      · exact .inr (.inl before)
      · exact (ih behind).imp .inr .inr

/-- What some ranges cover is not covered by ranges apart from them. -/
theorem not_covers_of_areApart {first second : List CharacterRange}
    (apart : areApart first second = true) (covered : covers first c = true) :
    covers second c = false := by
  obtain ⟨range, mem, inside⟩ := List.any_eq_true.mp covered
  rw [covers, List.any_eq_false]
  intro other among
  have gap := List.all_eq_true.mp (List.all_eq_true.mp apart range mem) other among
  simp only [Bool.or_eq_true, decide_eq_true_eq, Bool.and_eq_true] at gap inside ⊢
  omega

/-- The code points between the ranges of a table. -/
def gaps (ranges : List CharacterRange) : List CharacterRange := remainder ranges [(0, 0x10FFFF)]

/-- A table that lies in the gaps of another one has no character of it. Few ranges are compared one
by one: the large table is only cut along the gaps. -/
theorem not_covers_of_gaps {ranges others : List CharacterRange}
    (apart : areApart (gaps ranges) ranges = true) (inside : remainder (gaps ranges) others = [])
    (covered : covers others c = true) : covers ranges c = false := by
  rcases covers_or_remainder (gaps ranges) covered with between | left
  · exact not_covers_of_areApart apart between
  · rw [inside] at left
    cases left

end CharacterRange

open CharacterRange

/-! ### Characters that belong to no name -/

/-- Letters that belong to no identifier name: the enclosed ones and the vertical tilde. -/
def strayLetterRanges : List CharacterRange :=
  [(0x24B6, 0x24E9), (0x2E2F, 0x2E2F), (0x1F130, 0x1F149), (0x1F150, 0x1F169),
   (0x1F170, 0x1F189)]

/-- Numbers that belong to no identifier name: superscripts, fractions, enclosed numbers and the signs
for numbers that are no decimal digits. -/
def strayNumberRanges : List CharacterRange :=
  [(0xB2, 0xB3), (0xB9, 0xB9), (0xBC, 0xBE), (0x9F4, 0x9F9), (0xB72, 0xB77), (0xBF0, 0xBF2),
   (0xC78, 0xC7E), (0xD58, 0xD5E), (0xD70, 0xD78), (0xF2A, 0xF33), (0x1372, 0x137C),
   (0x17F0, 0x17F9), (0x2070, 0x2070), (0x2074, 0x2079), (0x2080, 0x2089), (0x2150, 0x215F),
   (0x2189, 0x2189), (0x2460, 0x249B), (0x24EA, 0x24FF), (0x2776, 0x2793), (0x2CFD, 0x2CFD),
   (0x3192, 0x3195), (0x3220, 0x3229), (0x3248, 0x324F), (0x3251, 0x325F), (0x3280, 0x3289),
   (0x32B1, 0x32BF), (0xA830, 0xA835), (0x10107, 0x10133), (0x10175, 0x10178),
   (0x1018A, 0x1018B), (0x102E1, 0x102FB), (0x10320, 0x10323), (0x10858, 0x1085F),
   (0x10879, 0x1087F), (0x108A7, 0x108AF), (0x108FB, 0x108FF), (0x10916, 0x1091B),
   (0x109BC, 0x109BD), (0x109C0, 0x109CF), (0x109D2, 0x109FF), (0x10A40, 0x10A48),
   (0x10A7D, 0x10A7E), (0x10A9D, 0x10A9F), (0x10AEB, 0x10AEF), (0x10B58, 0x10B5F),
   (0x10B78, 0x10B7F), (0x10BA9, 0x10BAF), (0x10CFA, 0x10CFF), (0x10E60, 0x10E7E),
   (0x10F1D, 0x10F26), (0x10F51, 0x10F54), (0x10FC5, 0x10FCB), (0x11052, 0x11065),
   (0x111E1, 0x111F4), (0x1173A, 0x1173B), (0x118EA, 0x118F2), (0x11C5A, 0x11C6C),
   (0x11FC0, 0x11FD4), (0x16B5B, 0x16B61), (0x16E80, 0x16E96), (0x1D2C0, 0x1D2D3),
   (0x1D2E0, 0x1D2F3), (0x1D360, 0x1D378), (0x1E8C7, 0x1E8CF), (0x1EC71, 0x1ECAB),
   (0x1ECAD, 0x1ECAF), (0x1ECB1, 0x1ECB4), (0x1ED01, 0x1ED2D), (0x1ED2F, 0x1ED3D),
   (0x1F100, 0x1F10C)]

/-- A character that bare keys may have and identifier names may not. -/
def isStray (c : Char) : Bool := covers strayLetterRanges c || covers strayNumberRanges c

/-- A character that an identifier name may have, but not in front. -/
def onlyContinues (c : Char) : Bool := continuesEcmaName c && !startsEcmaName c

/-- Among the letters only the stray ones cannot continue a name. -/
theorem hasIdContinue_or_stray_of_isAlphabetic {c : Char} (letter : isAlphabetic c = true) :
    hasIdContinue c = true ∨ isStray c = true := by
  have left : remainder idContinueRanges alphabeticRanges = strayLetterRanges := by decide +kernel
  rcases covers_or_remainder idContinueRanges letter with inside | outside
  · exact .inl inside
  · rw [left] at outside
    exact .inr (by rw [isStray, outside, Bool.true_or])

/-- A numeric character can continue a name or is stray. -/
theorem hasIdContinue_or_stray_of_isNumeric {c : Char} (number : isNumeric c = true) :
    hasIdContinue c = true ∨ isStray c = true := by
  have left : remainder idContinueRanges numericRanges = strayNumberRanges := by decide +kernel
  rcases covers_or_remainder idContinueRanges number with inside | outside
  · exact .inl inside
  · rw [left] at outside
    exact .inr (by rw [isStray, outside, Bool.or_true])

/-- What can continue a name is not stray. -/
theorem not_isStray_of_hasIdContinue {c : Char} (continues : hasIdContinue c = true) :
    isStray c = false := by
  have letter : covers strayLetterRanges c = false :=
    not_covers_of_gaps (by decide +kernel) (by decide +kernel) continues
  have number : covers strayNumberRanges c = false :=
    not_covers_of_gaps (by decide +kernel) (by decide +kernel) continues
  rw [isStray, letter, number]
  rfl

/-- What can start a name can continue one. -/
theorem hasIdContinue_of_hasIdStart {c : Char} (starts : hasIdStart c = true) :
    hasIdContinue c = true := by
  have covered : remainder idContinueRanges idStartRanges = [] := by decide +kernel
  rcases covers_or_remainder idContinueRanges starts with inside | outside
  · exact inside
  · rw [covered] at outside
    cases outside

/-! ### Characters of bare keys -/

/-- No character of an ECMAScript name is stray. -/
theorem not_isStray_of_continuesEcmaName {c : Char} (continues : continuesEcmaName c = true) :
    isStray c = false := by
  simp only [continuesEcmaName, Bool.or_eq_true, beq_iff_eq] at continues
  rcases continues with (((continues | rfl) | rfl) | rfl) | rfl
  · exact not_isStray_of_hasIdContinue continues
  all_goals decide +kernel

theorem continuesEcmaName_of_startsEcmaName {c : Char} (starts : startsEcmaName c = true) :
    continuesEcmaName c = true := by
  simp only [startsEcmaName, Bool.or_eq_true, beq_iff_eq] at starts
  rcases starts with (starts | rfl) | rfl
  · simp [continuesEcmaName, hasIdContinue_of_hasIdStart starts]
  · simp [continuesEcmaName]
  · simp [continuesEcmaName]

/-- A character of a bare key continues an identifier name unless it is a stray one. -/
theorem continuesEcmaName_iff {c : Char} (continues : continuesIdentifier c = true) :
    continuesEcmaName c = true ↔ isStray c = false := by
  refine ⟨not_isStray_of_continuesEcmaName, fun tame => ?_⟩
  have named : hasIdContinue c = true ∨ isStray c = true → continuesEcmaName c = true := by
    rintro (inside | stray)
    · simp [continuesEcmaName, inside]
    · rw [tame] at stray
      cases stray
  simp only [continuesIdentifier, startsIdentifier, Bool.or_eq_true, beq_iff_eq] at continues
  rcases continues with ((letter | rfl) | rfl) | number
  · exact named (hasIdContinue_or_stray_of_isAlphabetic letter)
  · simp [continuesEcmaName]
  · simp [continuesEcmaName]
  · exact named (hasIdContinue_or_stray_of_isNumeric number)

/-- The first character of a bare key starts an identifier name if it continues one and may come
first. -/
theorem startsEcmaName_iff {c : Char} (starts : startsIdentifier c = true) :
    startsEcmaName c = true ↔ isStray c = false ∧ onlyContinues c = false := by
  have continues : continuesIdentifier c = true := by rw [continuesIdentifier, starts, Bool.true_or]
  constructor
  · intro starts
    have tame := not_isStray_of_continuesEcmaName (continuesEcmaName_of_startsEcmaName starts)
    exact ⟨tame, by rw [onlyContinues, starts, Bool.not_true, Bool.and_false]⟩
  · rintro ⟨tame, front⟩
    rw [onlyContinues, (continuesEcmaName_iff continues).mpr tame, Bool.true_and] at front
    simpa using front

/-- A bare key is an identifier name unless it has a stray character or begins with one that may only
continue a name. -/
theorem isEcmaName_iff {key : String} (bare : isIdentifierName key = true) :
    isEcmaName key = true ↔
      (∀ c ∈ key.toList, isStray c = false) ∧
        ∀ first ∈ key.toList.head?, onlyContinues first = false := by
  rw [isIdentifierName] at bare
  rw [isEcmaName]
  cases characters : key.toList with
  | nil =>
      rw [characters] at bare
      cases bare
  | cons first rest =>
      rw [characters] at bare
      obtain ⟨starts, further⟩ := Bool.and_eq_true_iff.mp bare
      have tail : rest.all continuesEcmaName = true ↔ ∀ c ∈ rest, isStray c = false := by
        rw [List.all_eq_true] at further ⊢
        exact forall₂_congr fun c mem => continuesEcmaName_iff (further c mem)
      simp only [Bool.and_eq_true, startsEcmaName_iff starts, tail, List.forall_mem_cons,
        List.head?_cons, Option.mem_some_iff, forall_eq']
      exact and_right_comm

end Text

/-! ### Keys of object literals -/

namespace Value

/-- How a key is written: bare when it has the form of a name, and otherwise in quotes. A bare key is an
identifier name but for stray characters and characters that may not come first. -/
inductive KeyWritten (key : String) : Node → Prop where
  | bare (form : Text.isIdentifierName key = true)
      (name : Text.isEcmaName key = true ↔
        (∀ c ∈ key.toList, Text.isStray c = false) ∧
          ∀ first ∈ key.toList.head?, Text.onlyContinues first = false) :
      KeyWritten key (Node.identifier key)
  | quoted (form : Text.isIdentifierName key = false) : KeyWritten key (Node.string key)

/-- A key is written as its literal. -/
theorem keyWritten_keyLiteral (key : String) : KeyWritten key (keyLiteral key) := by
  unfold keyLiteral
  split
  · rename_i form
    exact .bare form (Text.isEcmaName_iff form)
  · rename_i form
    exact .quoted (Bool.eq_false_iff.mpr form)

/-- An entry and the property that is written for it. -/
def EntryWritten (entry : String × Value) (property : Node) : Prop :=
  ∃ key node, KeyWritten entry.1 key ∧ entry.2.literal? = some node ∧
    property = Node.property key node

/-- The entries of an object that have literals are written one by one. -/
theorem entriesWritten (entries : List (String × Value)) :
    List.Forall₂ EntryWritten (entries.filter fun entry => entry.2.literal?.isSome)
      (entryLiterals entries) := by
  induction entries with
  | nil => exact .nil
  | cons entry rest ih =>
      obtain ⟨key, value⟩ := entry
      cases literal : value.literal? with
      | none =>
          rw [List.filter_cons_of_neg (by simp [literal])]
          simpa [entryLiterals, literal] using ih
      | some node =>
          rw [List.filter_cons_of_pos (by simp [literal])]
          simpa [entryLiterals, literal] using
            List.Forall₂.cons ⟨_, node, keyWritten_keyLiteral key, literal, rfl⟩ ih

end Value

/-- The literal of an object has a property for each entry that has a literal, in their order. Its key
is the key of the entry, bare if all its characters are letters, numbers, underscores and dollar signs
and the first one is no number, and in quotes otherwise. A bare key is an identifier name exactly when it
has no stray character and does not begin with a character that may only continue a name. -/
theorem bare_keys_are_names_unless_stray (entries : List (String × Value)) :
    ∃ properties, (Value.object entries).literal? = some (Node.object properties) ∧
      List.Forall₂ Value.EntryWritten (entries.filter fun entry => entry.2.literal?.isSome)
        properties :=
  ⟨Value.entryLiterals entries, rfl, Value.entriesWritten entries⟩

/-- A superscript stands bare in a key, and no identifier name has one. -/
theorem superscript_key_stands_bare :
    (Value.object [("x²", .null)]).literal? =
        some (Node.object [Node.property (Node.identifier "x²") Node.null]) ∧
      Text.isEcmaName "x²" = false := by
  have bare : Text.isIdentifierName "x²" = true := by decide +kernel
  constructor
  · simp [Value.literal?, Value.entryLiterals, Value.keyLiteral, bare]
  · decide +kernel

end Imprint
