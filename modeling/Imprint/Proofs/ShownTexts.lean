/-
Module: Imprint.Proofs.ShownTexts
Purpose: What is shown of names and paths. A text is shown as it is. Of other bytes, those below 128 are
  shown as they are, and of the greater ones every run is shown as characters that are not below 128;
  so a name is shown as a name, with slashes only where it has some.
Main exports: RawText.shown_ofText, RawText.Shows, RawText.shows_characters,
  RawText.slash_mem_shown, RawText.shown_eq_iff, RawText.ofText_shown
-/
import Imprint.Proofs.RawTexts
import Mathlib.Algebra.Group.Nat.Defs

namespace Imprint.RawText

variable {byte : UInt8} {rest : List UInt8} {bits low high more : Nat} {begun : Begun}

/-! ### One byte -/

theorem characters_narrow (narrow : byte.toNat < 0x80) :
    characters none (byte :: rest) = Char.ofNat byte.toNat :: characters none rest := by
  rw [characters, first, if_pos narrow, onward]

/-- A byte with which a character of several bytes begins. -/
theorem characters_lead (found : begun? byte = some begun) :
    characters none (byte :: rest) = characters (some begun) rest := by
  have wide : ¬byte.toNat < 0x80 := by
    intro narrow
    have unbegun : begun? byte = none := if_pos (by omega)
    rw [unbegun] at found
    cases found
  rw [characters, first, if_neg wide, found, onward]

/-- A byte that fits, of which it takes more. -/
theorem characters_next (fits : low ≤ byte.toNat ∧ byte.toNat ≤ high) :
    characters (some ⟨bits, low, high, more + 1⟩) (byte :: rest) =
      characters (some ⟨64 * bits + byte.toNat % 64, 0x80, 0xBF, more⟩) rest := by
  rw [characters, Begun.next?, if_pos fits]
  rfl

/-- The last byte of a character. -/
theorem characters_last (fits : low ≤ byte.toNat ∧ byte.toNat ≤ high) :
    characters (some ⟨bits, low, high, 0⟩) (byte :: rest) =
      Char.ofNat (64 * bits + byte.toNat % 64) :: characters none rest := by
  rw [characters, Begun.next?, if_pos fits]
  rfl

/-! ### Texts -/

theorem begun?_two {v : Nat} (least : 0x80 ≤ v) (most : v < 0x800) :
    begun? (UInt8.ofNat (v / 64 % 32 + 192)) = some ⟨v / 64, 0x80, 0xBF, 0⟩ := by
  have lead : (UInt8.ofNat (v / 64 % 32 + 192)).toNat = v / 64 + 192 := by
    rw [UInt8.toNat_ofNat']
    omega
  have bits : (v / 64 + 192) % 32 = v / 64 := by omega
  unfold begun?
  simp only [lead]
  rw [if_neg (by omega), if_pos (by omega), bits]

/-- The ranges of the second byte leave out what has fewer bytes, and surrogates. -/
theorem begun?_three {v : Nat} (least : 0x800 ≤ v) (most : v < 0x10000)
    (valid : v < 0xD800 ∨ 0xDFFF < v) :
    ∃ low high, begun? (UInt8.ofNat (v / 4096 % 16 + 224)) = some ⟨v / 4096, low, high, 1⟩ ∧
      low ≤ v / 64 % 64 + 128 ∧ v / 64 % 64 + 128 ≤ high := by
  have lead : (UInt8.ofNat (v / 4096 % 16 + 224)).toNat = v / 4096 + 224 := by
    rw [UInt8.toNat_ofNat']
    omega
  have bits : (v / 4096 + 224) % 16 = v / 4096 := by omega
  unfold begun?
  simp only [lead]
  rw [if_neg (by omega), if_neg (by omega)]
  by_cases first : v / 4096 = 0
  · refine ⟨0xA0, 0xBF, ?_, by omega, by omega⟩
    rw [if_pos (by omega), bits]
  rw [if_neg (by omega)]
  by_cases surrogate : v / 4096 = 13
  · refine ⟨0x80, 0x9F, ?_, by omega, by omega⟩
    rw [if_pos (by omega), bits]
  · refine ⟨0x80, 0xBF, ?_, by omega, by omega⟩
    rw [if_neg (by omega), if_pos (by omega), bits]

/-- Those of four bytes leave out what has fewer and what is too great. -/
theorem begun?_four {v : Nat} (least : 0x10000 ≤ v) (most : v < 0x110000) :
    ∃ low high, begun? (UInt8.ofNat (v / 262144 % 8 + 240)) = some ⟨v / 262144, low, high, 2⟩ ∧
      low ≤ v / 4096 % 64 + 128 ∧ v / 4096 % 64 + 128 ≤ high := by
  have lead : (UInt8.ofNat (v / 262144 % 8 + 240)).toNat = v / 262144 + 240 := by
    rw [UInt8.toNat_ofNat']
    omega
  have bits : (v / 262144 + 240) % 8 = v / 262144 := by omega
  unfold begun?
  simp only [lead]
  rw [if_neg (by omega), if_neg (by omega), if_neg (by omega), if_neg (by omega), if_neg (by omega)]
  by_cases first : v / 262144 = 0
  · refine ⟨0x90, 0xBF, ?_, by omega, by omega⟩
    rw [if_pos (by omega), bits]
  rw [if_neg (by omega)]
  by_cases last : v / 262144 = 4
  · refine ⟨0x80, 0x8F, ?_, by omega, by omega⟩
    rw [if_neg (by omega), if_pos (by omega), bits]
  · refine ⟨0x80, 0xBF, ?_, by omega, by omega⟩
    rw [if_pos (by omega), bits]

/-- A character of several bytes is complete after the last of them. -/
theorem characters_utf8EncodeChar (c : Char) (rest : List UInt8) :
    characters none (String.utf8EncodeChar c ++ rest) = c :: characters none rest := by
  have number : c.val.toNat = c.toNat := rfl
  have valid : c.toNat < 0xD800 ∨ 0xDFFF < c.toNat ∧ c.toNat < 0x110000 := c.valid
  have back : Char.ofNat c.toNat = c := c.ofNat_toNat
  unfold String.utf8EncodeChar
  simp only [number]
  -- What is left is about the number of the character.
  generalize c.toNat = v at valid back
  have tail (n : Nat) (small : n < 64) : (UInt8.ofNat (n + 128)).toNat = n + 128 := by
    rw [UInt8.toNat_ofNat']
    omega
  have third := tail (v / 4096 % 64) (by omega)
  have second := tail (v / 64 % 64) (by omega)
  have last := tail (v % 64) (by omega)
  split
  · have lead : (UInt8.ofNat v).toNat = v := by
      rw [UInt8.toNat_ofNat']
      omega
    rw [List.singleton_append, characters_narrow (by omega), lead, back]
  · split
    · have begun := begun?_two (v := v) (by omega) (by omega)
      have whole : 64 * (v / 64) + (v % 64 + 128) % 64 = v := by omega
      simp only [List.cons_append, List.nil_append]
      rw [characters_lead begun, characters_last (by omega), last, whole, back]
    · split
      · obtain ⟨low, high, begun, fits⟩ := begun?_three (v := v) (by omega) (by omega) (by omega)
        have whole : 64 * (64 * (v / 4096) + (v / 64 % 64 + 128) % 64) + (v % 64 + 128) % 64 = v := by
          omega
        simp only [List.cons_append, List.nil_append]
        rw [characters_lead begun, characters_next (by omega), characters_last (by omega), second,
          last, whole, back]
      · obtain ⟨low, high, begun, fits⟩ := begun?_four (v := v) (by omega) (by omega)
        have whole : 64 * (64 * (64 * (v / 262144) + (v / 4096 % 64 + 128) % 64) +
            (v / 64 % 64 + 128) % 64) + (v % 64 + 128) % 64 = v := by
          omega
        simp only [List.cons_append, List.nil_append]
        rw [characters_lead begun, characters_next (by omega), characters_next (by omega),
          characters_last (by omega), third, second, last, whole, back]

/-- A text is shown as it is. -/
@[simp] theorem shown_ofText (text : String) : (ofText text).shown = text := by
  have whole (cs : List Char) : characters none (cs.flatMap String.utf8EncodeChar) = cs := by
    induction cs with
    | nil => rfl
    | cons c rest ih => rw [List.flatMap_cons, characters_utf8EncodeChar, ih]
  rw [shown, ofText, whole, String.ofList_toList]

/-! ### Bytes that are no text -/

/-- Bytes as they are shown: each one below 128 as itself, and a run of greater ones as a character that
is not below 128 either. -/
inductive Shows : List UInt8 → List Char → Prop where
  | nothing : Shows [] []
  | narrow {byte : UInt8} {rest : List UInt8} {cs : List Char} (narrow : byte.toNat < 0x80)
      (more : Shows rest cs) : Shows (byte :: rest) (Char.ofNat byte.toNat :: cs)
  | wide {run rest : List UInt8} {c : Char} {cs : List Char} (filled : run ≠ [])
      (bytes : ∀ byte ∈ run, 0x80 ≤ byte.toNat) (character : 0x80 ≤ c.toNat)
      (more : Shows rest cs) : Shows (run ++ rest) (c :: cs)

/-- The number of the character with a number, if there is one. -/
theorem toNat_ofNat {n : Nat} (isChar : n.isValidChar) : (Char.ofNat n).toNat = n := by
  rw [Char.ofNat, dif_pos isChar]
  rfl

namespace Begun

/-- The least number that a character can have which has begun. -/
def least (begun : Begun) : Nat := 64 ^ begun.more * (64 * begun.bits + begun.low % 64)

/-- The number after the greatest one that a character can have which has begun. -/
def bound (begun : Begun) : Nat := 64 ^ begun.more * (64 * begun.bits + begun.high % 64 + 1)

/-- What comes of a character that has begun is one, and not below 128. -/
structure Proper (begun : Begun) : Prop where
  range : 0x80 ≤ begun.low ∧ begun.high ≤ 0xBF
  wide : 0x80 ≤ begun.least
  valid : begun.bound ≤ 0xD800 ∨ 0xDFFF < begun.least ∧ begun.bound ≤ 0x110000

theorem proper_of_begun? (found : begun? byte = some begun) : begun.Proper := by
  have lead := byte.toNat_lt
  unfold begun? at found
  dsimp only at found
  repeat' split at found
  all_goals cases found
  all_goals constructor <;> simp only [least, bound] <;> omega

/-- One more byte narrows the choice of characters. -/
theorem Proper.next (proper : Proper ⟨bits, low, high, more + 1⟩)
    (fits : low ≤ byte.toNat ∧ byte.toNat ≤ high) :
    Proper ⟨64 * bits + byte.toNat % 64, 0x80, 0xBF, more⟩ := by
  obtain ⟨range, wide, valid⟩ := proper
  simp only [least, bound] at range wide valid
  have lower : 64 ^ (more + 1) * (64 * bits + low % 64) ≤
      64 ^ more * (64 * (64 * bits + byte.toNat % 64) + 0x80 % 64) := by
    rw [Nat.pow_succ, Nat.mul_assoc]
    apply Nat.mul_le_mul_left
    omega
  have upper : 64 ^ more * (64 * (64 * bits + byte.toNat % 64) + 0xBF % 64 + 1) ≤
      64 ^ (more + 1) * (64 * bits + high % 64 + 1) := by
    rw [Nat.pow_succ, Nat.mul_assoc]
    apply Nat.mul_le_mul_left
    omega
  constructor <;> simp only [least, bound] <;> omega

/-- The last byte makes one of these characters. -/
theorem Proper.last (proper : Proper ⟨bits, low, high, 0⟩)
    (fits : low ≤ byte.toNat ∧ byte.toNat ≤ high) :
    0x80 ≤ (Char.ofNat (64 * bits + byte.toNat % 64)).toNat := by
  obtain ⟨range, wide, valid⟩ := proper
  simp only [least, bound] at range wide valid
  have isChar : (64 * bits + byte.toNat % 64).isValidChar := by
    simp only [Nat.isValidChar]
    omega
  rw [toNat_ofNat isChar]
  omega

end Begun

/-- A character that has begun takes some of the bytes that follow, none of which is below 128, and is
shown as one character. -/
theorem exists_run_of_begun (proper : begun.Proper) (bytes : List UInt8) :
    ∃ run rest c, bytes = run ++ rest ∧ (∀ byte ∈ run, 0x80 ≤ byte.toNat) ∧ 0x80 ≤ c.toNat ∧
      characters (some begun) bytes = c :: characters none rest := by
  induction bytes generalizing begun with
  | nil => exact ⟨[], [], replacement, rfl, List.forall_mem_nil _, by decide, rfl⟩
  | cons byte bytes ih =>
      obtain ⟨bits, low, high, more⟩ := begun
      by_cases fits : low ≤ byte.toNat ∧ byte.toNat ≤ high
      · have wide : 0x80 ≤ byte.toNat := Nat.le_trans proper.range.1 fits.1
        cases more with
        | zero =>
            refine ⟨[byte], bytes, _, rfl, ?_, proper.last fits, characters_last fits⟩
            simpa using wide
        | succ more =>
            obtain ⟨run, rest, c, rfl, high, character, shown⟩ := ih (proper.next fits)
            refine ⟨byte :: run, rest, c, rfl, ?_, character, ?_⟩
            · exact List.forall_mem_cons.mpr ⟨wide, high⟩
            · rw [characters_next fits, shown]
      · -- The byte does not fit, so the character is broken off in front of it.
        have broken : Begun.next? ⟨bits, low, high, more⟩ byte = none := if_neg fits
        refine ⟨[], byte :: bytes, replacement, rfl, List.forall_mem_nil _, by decide, ?_⟩
        simp only [characters, broken]

theorem shows_characters (bytes : List UInt8) : Shows bytes (characters none bytes) := by
  induction size : bytes.length using Nat.strongRecOn generalizing bytes with
  | _ size ih =>
      cases bytes with
      | nil => exact .nothing
      | cons byte bytes =>
          rw [List.length_cons] at size
          by_cases narrow : byte.toNat < 0x80
          · rw [characters_narrow narrow]
            exact .narrow narrow (ih _ (by omega) bytes rfl)
          · have wide : 0x80 ≤ byte.toNat := Nat.le_of_not_lt narrow
            cases found : begun? byte with
            | none =>
                have shown : characters none (byte :: bytes) = replacement :: characters none bytes := by
                  rw [characters, first, if_neg narrow, found, onward]
                rw [shown]
                apply Shows.wide (List.cons_ne_nil byte []) (by simpa using wide) (by decide)
                exact ih _ (by omega) bytes rfl
            | some begun =>
                obtain ⟨run, rest, c, rfl, high, character, shown⟩ :=
                  exists_run_of_begun (Begun.proper_of_begun? found) bytes
                rw [characters_lead found, shown]
                apply Shows.wide (List.cons_ne_nil byte run) _ character
                · rw [List.length_append] at size
                  exact ih _ (by omega) rest rfl
                · exact List.forall_mem_cons.mpr ⟨wide, high⟩

/-- A character below 128 is shown where its byte is. -/
theorem Shows.mem {bytes : List UInt8} {cs : List Char} (shows : Shows bytes cs) {c : Char}
    (narrow : c.toNat < 0x80) : c ∈ cs ↔ UInt8.ofNat c.toNat ∈ bytes := by
  have byteOf : (UInt8.ofNat c.toNat).toNat = c.toNat := by
    rw [UInt8.toNat_ofNat']
    omega
  induction shows with
  | nothing => simp
  | @narrow byte rest cs low more ih =>
      have same : c = Char.ofNat byte.toNat ↔ UInt8.ofNat c.toNat = byte := by
        constructor
        · rintro rfl
          rw [toNat_ofNat (.inl (by omega)), UInt8.ofNat_toNat]
        · rintro rfl
          rw [byteOf, Char.ofNat_toNat]
      simp only [List.mem_cons, ih, same]
  | @wide run rest other cs filled bytes character more ih =>
      have outside : UInt8.ofNat c.toNat ∉ run := by
        intro mem
        have high := bytes _ mem
        omega
      have unlike : c ≠ other := by
        rintro rfl
        omega
      simp [ih, outside, unlike]

/-- What is shown as characters below 128 is their bytes. -/
theorem Shows.eq_flatMap {bytes : List UInt8} {cs : List Char} (shows : Shows bytes cs)
    (narrow : ∀ c ∈ cs, c.toNat < 0x80) : bytes = cs.flatMap String.utf8EncodeChar := by
  induction shows with
  | nothing => rfl
  | @narrow byte rest cs low more ih =>
      have number : (Char.ofNat byte.toNat).toNat = byte.toNat := toNat_ofNat (.inl (by omega))
      have encoded : String.utf8EncodeChar (Char.ofNat byte.toNat) = [byte] := by
        rcases utf8EncodeChar_cases (Char.ofNat byte.toNat) with ⟨-, eq⟩ | ⟨wide, -⟩
        · rw [eq, number, UInt8.ofNat_toNat]
        · omega
      rw [List.flatMap_cons, encoded, ← ih (List.forall_mem_cons.mp narrow).2]
      rfl
  | @wide run rest c cs filled bytes character more ih =>
      have below := (List.forall_mem_cons.mp narrow).1
      omega

variable {raw : RawText}

/-- A slash is shown where there is one. -/
theorem slash_mem_shown : '/' ∈ raw.shown.toList ↔ slash ∈ raw.bytes := by
  rw [shown, String.toList_ofList]
  exact (shows_characters raw.bytes).mem (c := '/') (by decide)

/-- Only a text of characters below 128 itself is shown as that text. -/
theorem shown_eq_iff {text : String} (narrow : ∀ c ∈ text.toList, c.toNat < 0x80) :
    raw.shown = text ↔ raw = text := by
  constructor
  · rintro rfl
    apply RawText.ext
    rw [shown, String.toList_ofList] at narrow
    rw [shown, ofText, String.toList_ofList]
    exact (shows_characters raw.bytes).eq_flatMap narrow
  · rintro rfl
    exact shown_ofText text

/-- What is shown of the bytes of a text has these bytes. -/
theorem ofText_shown (isText : ∃ text : String, raw = text) : ofText raw.shown = raw := by
  obtain ⟨text, rfl⟩ := isText
  rw [shown_ofText]

end Imprint.RawText
