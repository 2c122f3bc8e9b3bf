/-
Module: Imprint.Proofs.RawTexts
Purpose: Names and paths as bytes. Cutting them at slashes and joining them with slashes undo each other,
  like for texts. The bytes of a text determine the text, are put together like the text, and have a
  byte below 128 exactly where the text has the character of that number.
Main exports: RawText.split_append, RawText.split_join, RawText.join_append, RawText.ofText_join,
  RawText.ofText_inj, RawText.mem_ofText
-/
import Imprint.Files.RawText
import Imprint.Proofs.TextPieces

namespace Imprint.RawText

variable {raw first between : RawText} {pieces before after rest : List RawText}

attribute [ext] RawText

/-! ### Putting bytes together -/

@[simp] theorem bytes_append (first second : RawText) :
    (first ++ second).bytes = first.bytes ++ second.bytes := rfl

@[simp] theorem bytes_empty : (ofText "").bytes = [] := rfl

@[simp] theorem bytes_slash : (ofText "/").bytes = [slash] := by decide

theorem append_assoc (first second third : RawText) :
    first ++ second ++ third = first ++ (second ++ third) :=
  RawText.ext (List.append_assoc _ _ _)

@[simp] theorem empty_append (raw : RawText) : "" ++ raw = raw := rfl

@[simp] theorem append_empty (raw : RawText) : raw ++ "" = raw :=
  RawText.ext (List.append_nil _)

/-! ### Cutting at slashes -/

/-- A slash stands between the pieces before it and the pieces after it. -/
theorem split_append (first second : RawText) :
    (first ++ "/" ++ second).split = first.split ++ second.split := by
  simp [split, Text.cut_append]

theorem slash_not_mem_of_mem_split (mem : first ∈ raw.split) : slash ∉ first.bytes := by
  obtain ⟨bytes, inside, rfl⟩ := List.mem_map.mp mem
  exact Text.not_mem_of_mem_cut inside

/-- What has no slash is one piece. -/
theorem split_of_not_mem (whole : slash ∉ raw.bytes) : raw.split = [raw] := by
  simp [split, Text.cut_of_not_mem whole]

/-! ### Joining -/

theorem join_cons (first : RawText) (more : rest ≠ []) :
    join between (first :: rest) = first ++ between ++ join between rest := by
  cases rest with
  | nil => exact absurd rfl more
  | cons second others => rfl

theorem join_append (filled : before ≠ []) (more : after ≠ []) :
    join between (before ++ after) = join between before ++ between ++ join between after := by
  induction before with
  | nil => exact absurd rfl filled
  | cons first rest ih =>
      cases rest with
      | nil => exact join_cons first more
      | cons second others =>
          have inner := ih (List.cons_ne_nil second others)
          have longer : second :: others ++ after ≠ [] := List.cons_ne_nil _ _
          rw [List.cons_append, join_cons first longer, inner,
            join_cons first (List.cons_ne_nil second others)]
          simp only [append_assoc]

/-- A byte that the separator does not have is in what is joined when one of the pieces has it. -/
theorem mem_join {byte : UInt8} (other : byte ∉ between.bytes) :
    byte ∈ (join between pieces).bytes ↔ ∃ piece ∈ pieces, byte ∈ piece.bytes := by
  induction pieces with
  | nil => simp [join]
  | cons first rest ih =>
      cases rest with
      | nil => simp [join]
      | cons second others =>
          rw [join_cons first (List.cons_ne_nil second others)]
          simp only [bytes_append, List.mem_append, other, or_false, ih]
          simp

/-- Cutting undoes joining when no piece has a slash in it. -/
theorem split_join (filled : pieces ≠ []) (whole : ∀ piece ∈ pieces, slash ∉ piece.bytes) :
    (join "/" pieces).split = pieces := by
  induction pieces with
  | nil => exact absurd rfl filled
  | cons first rest ih =>
      have start : first.split = [first] := split_of_not_mem (whole first List.mem_cons_self)
      cases rest with
      | nil => exact start
      | cons second others =>
          have inner := ih (List.cons_ne_nil second others)
            fun piece mem => whole piece (List.mem_cons_of_mem first mem)
          rw [join_cons first (List.cons_ne_nil second others), split_append, start, inner]
          rfl

/-- What is joined from pieces starts with a slash only if the first piece is empty. -/
theorem head?_join (filled : pieces ≠ []) (whole : ∀ piece ∈ pieces, slash ∉ piece.bytes)
    (starts : pieces.head? ≠ some "") : (join "/" pieces).bytes.head? ≠ some slash := by
  intro head
  obtain ⟨rest, eq⟩ := List.head?_eq_some_iff.mp head
  have joined : join "/" pieces = "" ++ "/" ++ (⟨rest⟩ : RawText) := RawText.ext (by simpa using eq)
  have cut := split_join filled whole
  rw [joined, split_append] at cut
  apply starts
  rw [← cut]
  rfl

/-- What is joined from pieces ends with a slash only if the last piece is empty. -/
theorem getLast?_join (filled : pieces ≠ []) (whole : ∀ piece ∈ pieces, slash ∉ piece.bytes)
    (ends : pieces.getLast? ≠ some "") : (join "/" pieces).bytes.getLast? ≠ some slash := by
  intro last
  obtain ⟨front, eq⟩ := List.getLast?_eq_some_iff.mp last
  have joined : join "/" pieces = (⟨front⟩ : RawText) ++ "/" ++ "" := RawText.ext (by simpa using eq)
  have cut := split_join filled whole
  rw [joined, split_append] at cut
  apply ends
  rw [← cut]
  exact List.getLast?_concat

/-! ### The bytes of a text -/

/-- The bytes are those that the text is kept in. -/
theorem bytes_ofText (text : String) : (ofText text).bytes = text.toByteArray.data.toList := by
  rw [← String.utf8Encode_toList, List.utf8Encode, List.toList_data_toByteArray]
  rfl

/-- Texts with the same bytes are the same. -/
theorem ofText_inj {first second : String} : ofText first = ofText second ↔ first = second := by
  constructor
  · intro same
    have bytes := congrArg RawText.bytes same
    rw [bytes_ofText, bytes_ofText] at bytes
    exact String.toByteArray_inj.mp (ByteArray.ext (Array.toList_inj.mp bytes))
  · rintro rfl
    rfl

theorem ofText_append (first second : String) :
    ofText (first ++ second) = ofText first ++ ofText second := by
  apply RawText.ext
  simp [ofText, String.toList_append]

/-- The bytes of joined texts are the joined bytes of the texts. -/
theorem ofText_join (between : String) (texts : List String) :
    ofText (Text.join between texts) = join between (texts.map ofText) := by
  induction texts with
  | nil => rfl
  | cons first rest ih =>
      by_cases more : rest = []
      · subst more
        rfl
      · have others : rest.map ofText ≠ [] := by simpa using more
        rw [Text.join_cons first more, List.map_cons, join_cons _ others, ofText_append,
          ofText_append, ih]

/-- A character below 128 is one byte, its number; every other one has greater bytes only. -/
theorem utf8EncodeChar_cases (c : Char) :
    (c.toNat < 0x80 ∧ String.utf8EncodeChar c = [UInt8.ofNat c.toNat]) ∨
      (0x80 ≤ c.toNat ∧ ∀ byte ∈ String.utf8EncodeChar c, 0x80 ≤ byte.toNat) := by
  have number : c.val.toNat = c.toNat := rfl
  unfold String.utf8EncodeChar
  simp only [number]
  by_cases narrow : c.toNat ≤ 127
  · exact .inl ⟨by omega, if_pos narrow⟩
  · refine .inr ⟨by omega, ?_⟩
    rw [if_neg narrow]
    split
    · simp only [List.forall_mem_cons, UInt8.toNat_ofNat']
      exact ⟨by omega, by omega, List.forall_mem_nil _⟩
    · split
      · simp only [List.forall_mem_cons, UInt8.toNat_ofNat']
        exact ⟨by omega, by omega, by omega, List.forall_mem_nil _⟩
      · simp only [List.forall_mem_cons, UInt8.toNat_ofNat']
        exact ⟨by omega, by omega, by omega, by omega, List.forall_mem_nil _⟩

/-- The byte of a character below 128 is in the bytes of the texts that have the character. -/
theorem mem_ofText {c : Char} (narrow : c.toNat < 0x80) {text : String} :
    UInt8.ofNat c.toNat ∈ (ofText text).bytes ↔ c ∈ text.toList := by
  have same (other : Char) : UInt8.ofNat c.toNat ∈ String.utf8EncodeChar other ↔ other = c := by
    rcases utf8EncodeChar_cases other with ⟨also, bytes⟩ | ⟨wide, bytes⟩
    · rw [bytes, List.mem_singleton, ← UInt8.toNat_inj, UInt8.toNat_ofNat', UInt8.toNat_ofNat',
        Nat.mod_eq_of_lt (by omega), Nat.mod_eq_of_lt (by omega), eq_comm, Char.toNat_inj]
    · apply iff_of_false
      · intro mem
        have high := bytes _ mem
        rw [UInt8.toNat_ofNat'] at high
        omega
      · rintro rfl
        omega
  rw [ofText, List.mem_flatMap]
  simp [same]

/-- A text has a slash exactly where its bytes have one. -/
theorem slash_mem_ofText {text : String} : slash ∈ (ofText text).bytes ↔ '/' ∈ text.toList :=
  mem_ofText (c := '/') (by decide)

end Imprint.RawText
