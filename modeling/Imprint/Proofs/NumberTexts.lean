/-
Module: Imprint.Proofs.NumberTexts
Purpose: Number texts that are written and read again. A natural number of 64 bits comes back as it is.
  The text of a finite floating point number has a point or an exponent, so what comes back is a
  floating point number, though not always the same one: those that do come back survive.
Main exports: Number.Survives, Binary64.Survives, Numeral.character_of_ofChars?,
  Number.survives_natural, Number.survives_real
-/
import Imprint.Json.Printer
import Imprint.Json.Numeral

namespace Imprint

/-- The number of a number text. -/
def Number.ofText? (source : String) : Option Number :=
  (Numeral.ofChars? source.toList).bind Numeral.number?

/-- A number that comes back when its text is read again. -/
def Number.Survives (number : Number) : Prop := Number.ofText? number.text = some number

/-- A floating point number that comes back when its text is read as one again. -/
def Binary64.Survives (x : Binary64) : Prop :=
  (Number.ofText? (Number.real x).text).map Number.toBinary64 = some x

instance (x : Binary64) : Decidable x.Survives := inferInstanceAs (Decidable (_ = _))

namespace Numeral

/-! ### The parts of a number text -/

theorem digit?_eq_some_iff {c : Char} {d : Nat} :
    digit? c = some d ↔ c.isDigit ∧ c.toNat - '0'.toNat = d := by
  simp [digit?]

/-- Every character is a digit that is taken, or left over. -/
theorem isDigit_or_mem_of_takeDigits {cs after : List Char} {digits : List Nat}
    (taken : takeDigits cs = (digits, after)) {c : Char} (mem : c ∈ cs) :
    c.isDigit ∨ c ∈ after := by
  induction cs generalizing digits with
  | nil => cases mem
  | cons first rest ih =>
      unfold takeDigits at taken
      split at taken
      · rename_i d digit
        obtain ⟨_, rfl⟩ := Prod.mk.inj taken
        rcases List.mem_cons.mp mem with rfl | mem
        · exact .inl (digit?_eq_some_iff.mp digit).1
        · exact ih rfl mem
      · obtain ⟨_, rfl⟩ := Prod.mk.inj taken
        exact .inr mem

/-- A fraction takes a point and digits. -/
theorem character_of_takeFraction? {cs after : List Char} {fraction : List Nat}
    (taken : takeFraction? cs = some (fraction, after)) {c : Char} (mem : c ∈ cs) :
    c.isDigit ∨ (fraction ≠ [] ∧ c = '.') ∨ c ∈ after := by
  unfold takeFraction? at taken
  split at taken
  · rename_i rest
    split at taken
    · cases taken
    · rename_i some_digit
      rcases List.mem_cons.mp mem with rfl | mem
      · refine .inr (.inl ⟨?_, rfl⟩)
        rintro rfl
        exact some_digit after (Option.some.inj taken)
      · rcases isDigit_or_mem_of_takeDigits (Option.some.inj taken) mem with digit | left
        · exact .inl digit
        · exact .inr (.inr left)
  · obtain ⟨_, rfl⟩ := Prod.mk.inj (Option.some.inj taken)
    exact .inr (.inr mem)

theorem character_of_takeSign {cs : List Char} {c : Char} (mem : c ∈ cs) :
    c = '-' ∨ c = '+' ∨ c ∈ (takeSign cs).2 := by
  unfold takeSign
  split
  · rcases List.mem_cons.mp mem with rfl | mem
    · exact .inl rfl
    · exact .inr (.inr mem)
  · rcases List.mem_cons.mp mem with rfl | mem
    · exact .inr (.inl rfl)
    · exact .inr (.inr mem)
  · exact .inr (.inr mem)

/-- An exponent is its mark, a sign and digits. -/
theorem character_of_exponentOf? {cs : List Char} {exponent : Option Int}
    (read : exponentOf? cs = some exponent) {c : Char} (mem : c ∈ cs) :
    exponent ≠ none ∧ (c.isDigit ∨ c = '-' ∨ c = '+' ∨ c = 'e' ∨ c = 'E') := by
  cases cs with
  | nil => cases mem
  | cons mark rest =>
      rw [exponentOf?] at read
      split at read
      · rename_i marks
        rcases signed : takeSign rest with ⟨negative, digits⟩
        simp only [signed] at read
        split at read
        · rename_i digit more taken
          cases read
          refine ⟨Option.some_ne_none _, ?_⟩
          rcases List.mem_cons.mp mem with rfl | mem
          · exact .inr (.inr (.inr marks))
          · rcases character_of_takeSign mem with minus | plus | mem
            · exact .inr (.inl minus)
            · exact .inr (.inr (.inl plus))
            · rw [signed] at mem
              rcases isDigit_or_mem_of_takeDigits taken mem with digit | left
              · exact .inl digit
              · cases left
        · cases read
      · cases read

/-- How the parts of a numeral follow each other in its text. -/
theorem ofChars?_cases {cs : List Char} {n : Numeral} (read : ofChars? cs = some n) :
    ∃ unsigned rest last, (cs = '-' :: unsigned ∨ cs = unsigned) ∧
      takeDigits unsigned = (n.whole, rest) ∧ isWhole n.whole ∧
      takeFraction? rest = some (n.fraction, last) ∧ exponentOf? last = some n.exponent := by
  rw [ofChars?.eq_def] at read
  split at read
  rename_i negative unsigned sign
  have signed : cs = '-' :: unsigned ∨ cs = unsigned := by
    split at sign <;> cases sign
    · exact .inl rfl
    · exact .inr rfl
  split at read
  rename_i whole rest digits
  split at read
  · rename_i isWhole
    split at read
    · cases read
    · rename_i fraction last fractional
      split at read
      · cases read
      · rename_i exponent exponential
        cases read
        exact ⟨unsigned, rest, last, signed, digits, isWhole, fractional, exponential⟩
  · cases read

/-- The characters of a number text. A point goes with a fraction, and a mark with an exponent. -/
theorem character_of_ofChars? {cs : List Char} {n : Numeral} (read : ofChars? cs = some n)
    {c : Char} (mem : c ∈ cs) :
    c.isDigit ∨ c = '-' ∨ (n.fraction ≠ [] ∧ c = '.') ∨
      (n.exponent ≠ none ∧ (c = '+' ∨ c = 'e' ∨ c = 'E')) := by
  obtain ⟨unsigned, rest, last, signed, whole, -, fractional, exponential⟩ := ofChars?_cases read
  have inside : c = '-' ∨ c ∈ unsigned := by
    rcases signed with rfl | rfl
    · exact List.mem_cons.mp mem
    · exact .inr mem
  rcases inside with minus | mem
  · exact .inr (.inl minus)
  rcases isDigit_or_mem_of_takeDigits whole mem with digit | mem
  · exact .inl digit
  rcases character_of_takeFraction? fractional mem with digit | point | mem
  · exact .inl digit
  · exact .inr (.inr (.inl point))
  obtain ⟨present, digit | minus | mark⟩ := character_of_exponentOf? exponential mem
  · exact .inl digit
  · exact .inr (.inl minus)
  · exact .inr (.inr (.inr ⟨present, mark⟩))

/-- A number text begins with a digit or a minus sign. -/
theorem exists_first_of_ofChars? {cs : List Char} {n : Numeral} (read : ofChars? cs = some n) :
    ∃ c rest, cs = c :: rest ∧ (c.isDigit ∨ c = '-') := by
  obtain ⟨unsigned, rest, last, signed, whole, isWhole, -⟩ := ofChars?_cases read
  rcases signed with rfl | rfl
  · exact ⟨_, _, rfl, .inr rfl⟩
  · cases cs with
    | nil =>
        obtain ⟨empty, -⟩ := Prod.mk.inj whole
        rw [← empty] at isWhole
        cases isWhole
    | cons c more =>
        refine ⟨c, more, rfl, .inl ?_⟩
        unfold takeDigits at whole
        split at whole
        · rename_i digit
          exact (digit?_eq_some_iff.mp digit).1
        · obtain ⟨empty, -⟩ := Prod.mk.inj whole
          rw [← empty] at isWhole
          cases isWhole

/-- What has a fraction or an exponent is read as a floating point number. -/
theorem real_of_number? {n : Numeral} {number : Number} (read : n.number? = some number)
    (parts : n.fraction ≠ [] ∨ n.exponent ≠ none) : ∃ value, number = .real value := by
  have unwhole : ((absorb 0 n.whole).2.isEmpty && n.fraction.isEmpty && n.exponent.isNone) ≠ true := by
    rcases parts with fraction | exponent
    · simp [fraction]
    · simp [exponent]
  rw [number?] at read
  simp only [if_neg unwhole] at read
  obtain ⟨value, -, rfl⟩ := Option.map_eq_some_iff.mp read
  exact ⟨value, rfl⟩

/-! ### Natural numbers -/

/-- A text of digits is taken whole. -/
theorem takeDigits_of_isDigit {cs : List Char} (digits : ∀ c ∈ cs, c.isDigit) :
    takeDigits cs = (cs.map fun c => c.toNat - '0'.toNat, []) := by
  induction cs with
  | nil => rfl
  | cons c rest ih =>
      have digit : digit? c = some (c.toNat - '0'.toNat) :=
        digit?_eq_some_iff.mpr ⟨digits c List.mem_cons_self, rfl⟩
      rw [takeDigits, digit, ih fun c mem => digits c (List.mem_cons_of_mem _ mem)]
      rfl

/-- Digits are taken into a significand as long as it stays small enough. -/
theorem absorb_of_lt {significand : Nat} {digits : List Nat}
    (lt : digits.foldl (fun value d => 10 * value + d) significand < wordLimit) :
    absorb significand digits = (digits.foldl (fun value d => 10 * value + d) significand, []) := by
  have grows (digits : List Nat) (significand : Nat) :
      significand ≤ digits.foldl (fun value d => 10 * value + d) significand := by
    induction digits generalizing significand with
    | nil => exact Nat.le_refl _
    | cons d rest ih => exact Nat.le_trans (by omega) (ih (10 * significand + d))
  induction digits generalizing significand with
  | nil => rfl
  | cons d rest ih =>
      have fits : 10 * significand + d < wordLimit := Nat.lt_of_le_of_lt (grows rest _) lt
      rw [absorb, if_pos fits, ih lt]
      rfl

/-- The values of the digits that a natural number is written with. -/
def digitsOf (n : Nat) : List Nat := (Nat.toDigits 10 n).map fun c => c.toNat - '0'.toNat

theorem takeDigits_toDigits (n : Nat) : takeDigits (Nat.toDigits 10 n) = (digitsOf n, []) :=
  takeDigits_of_isDigit fun _ mem => Nat.isDigit_of_mem_toDigits (by decide) (by decide) mem

theorem value_digitsOf (n : Nat) :
    (digitsOf n).foldl (fun value d => 10 * value + d) 0 = n := by
  rw [digitsOf, List.foldl_map, ← Nat.ofDigitChars_eq_foldl]
  exact Nat.ofDigitChars_toDigits (by decide) (by decide)

/-- Only zero is written with a zero in front. -/
theorem digitsOf_eq_cons {n : Nat} (pos : 0 < n) : ∃ d rest, digitsOf n = d :: rest ∧ d ≠ 0 := by
  induction n using Nat.strongRecOn with
  | ind n ih =>
      by_cases single : n < 10
      · refine ⟨n, [], ?_, Nat.pos_iff_ne_zero.mp pos⟩
        rw [digitsOf, Nat.toDigits_of_lt_base single, List.map_singleton]
        exact congrArg ([·]) (Nat.toNat_digitChar_sub_48_of_lt_ten single)
      · obtain ⟨d, rest, written, nonzero⟩ := ih (n / 10) (by omega) (by omega)
        rw [digitsOf] at written
        rw [digitsOf, Nat.toDigits_of_base_le (by decide) (by omega), List.map_append, written]
        exact ⟨d, _, rfl, nonzero⟩

theorem isWhole_digitsOf (n : Nat) : isWhole (digitsOf n) := by
  rcases Nat.eq_zero_or_pos n with rfl | pos
  · rfl
  · obtain ⟨d, rest, written, nonzero⟩ := digitsOf_eq_cons pos
    rw [written]
    cases rest with
    | nil => rfl
    | cons next more => simpa [isWhole] using nonzero

/-- The numeral of a natural number. -/
theorem ofChars?_toDigits (n : Nat) :
    ofChars? (Nat.toDigits 10 n) = some ⟨false, digitsOf n, [], none⟩ := by
  have unsigned (rest : List Char) : Nat.toDigits 10 n ≠ '-' :: rest := by
    intro signed
    have digit := Nat.isDigit_of_mem_toDigits (b := 10) (n := n) (c := '-') (by decide) (by decide)
      (by simp [signed])
    cases digit
  rw [ofChars?.eq_2 _ unsigned, takeDigits_toDigits]
  simp only [isWhole_digitsOf, if_true]
  rfl

theorem number?_digitsOf {n : Nat} (lt : n < wordLimit) :
    number? ⟨false, digitsOf n, [], none⟩ = some (.whole n) := by
  have absorbed : absorb 0 (digitsOf n) = (n, []) := by
    rw [absorb_of_lt (by rwa [value_digitsOf]), value_digitsOf]
  simp only [number?, absorbed]
  rfl

end Numeral

namespace Number

/-- A natural number of 64 bits comes back. -/
theorem survives_natural {n : Nat} (lt : n < Numeral.wordLimit) : Survives (.whole n) := by
  have written : (text (.whole n)).toList = Nat.toDigits 10 n := Nat.toList_repr
  rw [Survives, ofText?, written, Numeral.ofChars?_toDigits]
  exact Numeral.number?_digitsOf lt

/-! ### Floating point numbers -/

/-- What only texts of floating point numbers have: a point, or the mark of an exponent. -/
def HasMark (source : String) : Prop := '.' ∈ source.toList ∨ 'e' ∈ source.toList

theorem HasMark.append_left {source : String} (mark : HasMark source) (front : String) :
    HasMark (front ++ source) := by
  rw [HasMark, String.toList_append]
  exact mark.imp (List.mem_append_right _) (List.mem_append_right _)

theorem HasMark.append_right {source : String} (mark : HasMark source) (back : String) :
    HasMark (source ++ back) := by
  rw [HasMark, String.toList_append]
  exact mark.imp (List.mem_append_left _) (List.mem_append_left _)

theorem hasMark_positional {d : Decimal} (negative : d.exponent < 0) : HasMark d.positional := by
  obtain ⟨digits, exponent⟩ := d
  cases exponent with
  | ofNat zeros => exact absurd negative (Int.not_lt.mpr (Int.natCast_nonneg zeros))
  | negSucc places =>
      apply HasMark.append_right
      apply HasMark.append_left
      exact .inl (by decide)

theorem hasMark_scientific (d : Decimal) : HasMark d.scientific := by
  apply HasMark.append_left
  cases d.leadingExponent with
  | ofNat n => exact HasMark.append_right (.inr (by decide)) _
  | negSucc n => exact HasMark.append_right (.inr (by decide)) _

theorem hasMark_magnitudeText (x : Binary64) : HasMark (magnitudeText x) := by
  unfold magnitudeText
  split
  · exact .inl (by decide)
  · dsimp only
    split
    · split
      · exact HasMark.append_left (.inl (by decide)) _
      · rename_i negative
        exact hasMark_positional (Int.not_le.mp negative)
    · exact hasMark_scientific _

/-- Every finite number shows that it is a floating point number. -/
theorem hasMark_text {x : Binary64} (finite : x.isFinite) : HasMark (text (.real x)) := by
  rw [text, if_pos finite]
  split
  · exact (hasMark_magnitudeText x).append_left "-"
  · exact hasMark_magnitudeText x

/-- A text with a mark is that of no integer. -/
theorem real_of_hasMark {source : String} {number : Number} (mark : HasMark source)
    (read : ofText? source = some number) : ∃ value, number = .real value := by
  obtain ⟨numeral, written, read⟩ := Option.bind_eq_some_iff.mp read
  apply Numeral.real_of_number? read
  rcases mark with point | exponent
  · rcases Numeral.character_of_ofChars? written point with
      digit | minus | ⟨fraction, -⟩ | ⟨-, plus | lower | upper⟩
    · cases digit
    · cases minus
    · exact .inl fraction
    · cases plus
    · cases lower
    · cases upper
  · rcases Numeral.character_of_ofChars? written exponent with
      digit | minus | ⟨-, point⟩ | ⟨exponent, -⟩
    · cases digit
    · cases minus
    · cases point
    · exact .inr exponent

/-- A floating point number that survives is not read as an integer. -/
theorem survives_real {x : Binary64} (survives : x.Survives) : Survives (.real x) := by
  obtain ⟨number, read, same⟩ := Option.map_eq_some_iff.mp survives
  have finite : x.isFinite := by
    cases bounded : x.isFinite with
    | true => rfl
    | false =>
        have unread : ofText? "null" = none := by decide
        simp [text, bounded, unread] at read
  obtain ⟨value, rfl⟩ := real_of_hasMark (hasMark_text finite) read
  rw [Survives, read]
  exact congrArg (fun value => some (real value)) same

end Number

end Imprint
