/-
Module: Imprint.Proofs.DistinctNumbers
Purpose: What the texts of numbers tell. The digits of a text, its point and its exponent make up a
  decimal that rounds to the number, and its sign is that of the number. So two numbers with one text are
  the same number, or both are zeros. An exponent is written exactly for the numbers below a millionth
  and from 10²¹ up.
Main exports: Numeral.decimal, Numeral.ofChars?_written, EcmaScript.Parts, EcmaScript.exists_parts,
  Binary64.exists_numeral_sourceText, Binary64.eq_of_sourceText_eq, source_texts_follow_ecmascript
-/
import Imprint.Proofs.NumberNotation
import Imprint.Proofs.NumberTexts

namespace Imprint

/-! ### Reading the parts of a text -/

namespace Numeral

/-- The decimal that a numeral stands for. -/
def decimal (numeral : Numeral) : Decimal :=
  ⟨digitsValue (numeral.whole ++ numeral.fraction),
    numeral.exponent.getD 0 - numeral.fraction.length⟩

/-- The values of digits. -/
def values (cs : List Char) : List Nat := cs.map fun c => c.toNat - '0'.toNat

/-- Digits are read up to where they end. -/
theorem takeDigits_append {cs rest : List Char} (digits : ∀ c ∈ cs, c.isDigit)
    (ends : takeDigits rest = ([], rest)) : takeDigits (cs ++ rest) = (values cs, rest) := by
  induction cs with
  | nil => exact ends
  | cons c more ih =>
      have digit : digit? c = some (c.toNat - '0'.toNat) :=
        digit?_eq_some_iff.mpr ⟨digits c List.mem_cons_self, rfl⟩
      rw [List.cons_append, takeDigits, digit, ih fun c mem => digits c (List.mem_cons_of_mem _ mem)]
      rfl

/-- An exponent is read back from its text. -/
theorem exponentOf?_exponentText (exponent : Int) :
    exponentOf? (Decimal.exponentText exponent).toList = some (some exponent) := by
  have digits (n : Nat) : ∃ first more, digitsOf n = first :: more := by
    rcases Nat.eq_zero_or_pos n with rfl | pos
    · exact ⟨0, [], rfl⟩
    · obtain ⟨first, more, eq, -⟩ := digitsOf_eq_cons pos
      exact ⟨first, more, eq⟩
  obtain ⟨first, more, eq⟩ := digits exponent.natAbs
  have value : digitsValue (first :: more) = exponent.natAbs := by
    rw [← eq]
    exact value_digitsOf _
  have taken := takeDigits_toDigits exponent.natAbs
  rw [eq] at taken
  rw [Decimal.toList_exponentText]
  split
  · simp only [exponentOf?, true_or, if_true, takeSign, taken, value]
    congr 2
    omega
  · simp only [exponentOf?, true_or, if_true, takeSign, taken, value, Bool.false_eq_true, if_false]
    congr 2
    omega

/-- What ends a text: its exponent, if it has one. -/
def ending (exponent : Option Int) : List Char :=
  (exponent.map fun exponent => (Decimal.exponentText exponent).toList).getD []

/-- The ending of a number text has neither digits nor a point in front of its exponent. -/
theorem read_ending (exponent : Option Int) :
    takeDigits (ending exponent) = ([], ending exponent) ∧
      takeFraction? (ending exponent) = some ([], ending exponent) ∧
      exponentOf? (ending exponent) = some exponent := by
  cases exponent with
  | none => exact ⟨rfl, rfl, rfl⟩
  | some exponent =>
      refine ⟨?_, ?_, exponentOf?_exponentText exponent⟩
      · rw [ending, Option.map_some, Option.getD_some, Decimal.toList_exponentText]
        rfl
      · rw [ending, Option.map_some, Option.getD_some, Decimal.toList_exponentText]
        rfl

/-- What follows the digits in front of the point. -/
def remainder (fraction : List Char) (exponent : Option Int) : List Char :=
  (if fraction = [] then [] else '.' :: fraction) ++ ending exponent

theorem remainder_of_ne {fraction : List Char} (nonempty : fraction ≠ []) (exponent : Option Int) :
    remainder fraction exponent = '.' :: (fraction ++ ending exponent) := by
  rw [remainder, if_neg nonempty, List.cons_append]

/-- Behind the digits in front of the point, the fraction is read, and the ending is left. -/
theorem read_remainder {fraction : List Char} (digits : ∀ c ∈ fraction, c.isDigit)
    (exponent : Option Int) :
    takeDigits (remainder fraction exponent) = ([], remainder fraction exponent) ∧
      takeFraction? (remainder fraction exponent) = some (values fraction, ending exponent) := by
  obtain ⟨noDigit, noPoint, -⟩ := read_ending exponent
  cases fraction with
  | nil => exact ⟨noDigit, noPoint⟩
  | cons first more =>
      have taken := takeDigits_append digits noDigit
      refine ⟨rfl, ?_⟩
      show takeFraction? ('.' :: (first :: more ++ ending exponent)) = _
      rw [takeFraction?, taken]
      rfl

/-- A text with a sign, digits around a point, and an exponent. -/
def written (negative : Bool) (whole fraction : List Char) (exponent : Option Int) : List Char :=
  (if negative then ['-'] else []) ++ (whole ++ remainder fraction exponent)

/-- A text is read as what it is written from. -/
theorem ofChars?_written {whole fraction : List Char} (negative : Bool) (exponent : Option Int)
    (wholeDigits : ∀ c ∈ whole, c.isDigit) (fractionDigits : ∀ c ∈ fraction, c.isDigit)
    (form : isWhole (values whole)) :
    ofChars? (written negative whole fraction exponent) =
      some ⟨negative, values whole, values fraction, exponent⟩ := by
  obtain ⟨noDigit, fractional⟩ := read_remainder fractionDigits exponent
  have exponential := (read_ending exponent).2.2
  have taken := takeDigits_append wholeDigits noDigit
  cases negative with
  | true =>
      show ofChars? ('-' :: (whole ++ remainder fraction exponent)) = _
      rw [ofChars?, taken]
      simp only [form, if_true, fractional, exponential]
  | false =>
      have unsigned (rest : List Char) : whole ++ remainder fraction exponent ≠ '-' :: rest := by
        intro signed
        cases whole with
        | nil => cases form
        | cons first more =>
            obtain ⟨rfl, -⟩ := List.cons.inj signed
            have digit := wholeDigits '-' List.mem_cons_self
            cases digit
      show ofChars? (whole ++ remainder fraction exponent) = _
      rw [ofChars?.eq_2 _ unsigned, taken]
      simp only [form, if_true, fractional, exponential]

/-- Digits that do not begin with a zero can stand in front of a point. -/
theorem isWhole_of_ne {first : Nat} (nonzero : first ≠ 0) (rest : List Nat) :
    isWhole (first :: rest) := by
  cases rest with
  | nil => rfl
  | cons next more => simpa [isWhole] using nonzero

/-- Zeros behind the digits of a number multiply it by powers of ten. -/
theorem digitsValue_append_zeros (digits : List Nat) (zeros : Nat) :
    digitsValue (digits ++ List.replicate zeros 0) = digitsValue digits * 10 ^ zeros := by
  induction zeros with
  | zero => simp
  | succ zeros ih =>
      rw [List.replicate_succ', ← List.append_assoc, digitsValue, List.foldl_append]
      change 10 * digitsValue (digits ++ List.replicate zeros 0) + 0 = _
      rw [ih, Nat.pow_succ]
      ring

/-- Zeros in front of them make no difference. -/
theorem digitsValue_zeros_append (digits : List Nat) (zeros : Nat) :
    digitsValue (List.replicate zeros 0 ++ digits) = digitsValue digits := by
  induction zeros with
  | zero => rfl
  | succ zeros ih => exact ih

end Numeral

/-! ### Reading layouts -/

namespace EcmaScript

open Numeral

/-- The parts that the layout of digits is read as. -/
structure Parts (n : Int) (k s : Nat) (whole fraction : List Char) (exponent : Option Int) :
    Prop where
  layout : layout n k s = whole ++ remainder fraction exponent
  wholeDigits : ∀ c ∈ whole, c.isDigit
  fractionDigits : ∀ c ∈ fraction, c.isDigit
  form : isWhole (values whole)
  value : ∀ negative, (decimal ⟨negative, values whole, values fraction, exponent⟩).value =
    (Decimal.mk s (n - k)).value

section

variable {n : Int} {k s : Nat}

theorem isDigit_toDigits : ∀ c ∈ Nat.toDigits 10 s, c.isDigit :=
  fun _ mem => Nat.isDigit_of_mem_toDigits (by decide) (by decide) mem

/-- Where the point stands among the digits, no zeros are added. -/
theorem parts_split {exponent : Option Int} {front : Nat} (pos : 0 < s)
    (count : (Nat.toDigits 10 s).length = k) (filled : 0 < front) (place : front ≤ k)
    (power : exponent.getD 0 - (k - front : Nat) = n - k)
    (eq : layout n k s =
      (Nat.toDigits 10 s).take front ++ remainder ((Nat.toDigits 10 s).drop front) exponent) :
    Parts n k s ((Nat.toDigits 10 s).take front) ((Nat.toDigits 10 s).drop front) exponent := by
  refine ⟨eq, fun c mem => isDigit_toDigits c (List.mem_of_mem_take mem),
    fun c mem => isDigit_toDigits c (List.mem_of_mem_drop mem), ?_, fun negative => ?_⟩
  · obtain ⟨first, more, digits, nonzero⟩ := digitsOf_eq_cons pos
    obtain ⟨others, rfl⟩ := Nat.exists_eq_succ_of_ne_zero filled.ne'
    have taken : values ((Nat.toDigits 10 s).take (others + 1)) = (first :: more).take (others + 1) := by
      rw [← digits, values, List.map_take]
      rfl
    rw [Nat.succ_eq_add_one, taken, List.take_succ_cons]
    exact isWhole_of_ne nonzero _
  · have whole : values ((Nat.toDigits 10 s).take front) ++ values ((Nat.toDigits 10 s).drop front) =
        digitsOf s := by
      rw [values, values, ← List.map_append, List.take_append_drop]
      rfl
    have length : (values ((Nat.toDigits 10 s).drop front)).length = k - front := by
      rw [values, List.length_map, List.length_drop, count]
    rw [decimal, whole, length, power]
    exact congrArg (fun digits => (Decimal.mk digits (n - k)).value) (value_digitsOf s)

theorem isDigit_zeros {zeros : Nat} : ∀ c ∈ List.replicate zeros '0', c.isDigit := by
  intro c mem
  rw [List.eq_of_mem_replicate mem]
  rfl

theorem values_zeros (zeros : Nat) : values (List.replicate zeros '0') = List.replicate zeros 0 := by
  rw [values, List.map_replicate]
  rfl

/-- Zeros up to the point. -/
theorem parts_whole (pos : 0 < s) (whole : k ≤ n ∧ n ≤ 21) :
    Parts n k s (Nat.toDigits 10 s ++ List.replicate (n - k).toNat '0') [] none := by
  have joined : values (Nat.toDigits 10 s ++ List.replicate (n - k).toNat '0') =
      digitsOf s ++ List.replicate (n - k).toNat 0 := by
    rw [← values_zeros, values, List.map_append]
    rfl
  refine ⟨?_, ?_, List.forall_mem_nil _, ?_, fun negative => ?_⟩
  · rw [layout, if_pos whole, remainder, ending]
    simp
  · exact fun c mem => (List.mem_append.mp mem).elim (isDigit_toDigits c) (isDigit_zeros c)
  · obtain ⟨first, more, digits, nonzero⟩ := digitsOf_eq_cons pos
    rw [joined, digits]
    exact isWhole_of_ne nonzero _
  · have power : n - k = (n - k).toNat := by omega
    have value : digitsValue (digitsOf s) = s := value_digitsOf s
    have read : decimal ⟨negative, values (Nat.toDigits 10 s ++ List.replicate (n - k).toNat '0'),
        values [], none⟩ = ⟨s * 10 ^ (n - k).toNat, 0⟩ := by
      rw [decimal, joined, values, List.map_nil, List.append_nil, digitsValue_append_zeros, value]
      rfl
    rw [read, Decimal.value, Decimal.value, power]
    simp

/-- The point among the digits. -/
theorem parts_inside (pos : 0 < s) (count : (Nat.toDigits 10 s).length = k)
    (broken : ¬ (k ≤ n ∧ n ≤ 21)) (inside : 0 < n ∧ n ≤ 21) :
    Parts n k s ((Nat.toDigits 10 s).take n.toNat) ((Nat.toDigits 10 s).drop n.toNat) none := by
  have behind : (Nat.toDigits 10 s).drop n.toNat ≠ [] := by
    rw [ne_eq, List.drop_eq_nil_iff]
    omega
  refine parts_split pos count (by omega) (by omega) ?_ ?_
  · rw [Option.getD_none]
    omega
  · rw [layout, if_neg broken, if_pos inside, remainder_of_ne behind]
    simp [ending]

/-- Zeros behind the point. -/
theorem parts_small (small : -6 < n ∧ n ≤ 0) (count : (Nat.toDigits 10 s).length = k) :
    Parts n k s ['0'] (List.replicate (-n).toNat '0' ++ Nat.toDigits 10 s) none := by
  have nonempty : 0 < (Nat.toDigits 10 s).length := Nat.length_toDigits_pos
  have behind : List.replicate (-n).toNat '0' ++ Nat.toDigits 10 s ≠ [] := by
    refine List.ne_nil_of_length_pos ?_
    rw [List.length_append]
    omega
  have joined : values (List.replicate (-n).toNat '0' ++ Nat.toDigits 10 s) =
      List.replicate (-n).toNat 0 ++ digitsOf s := by
    rw [← values_zeros, values, List.map_append]
    rfl
  have zeroDigit : ∀ c ∈ ['0'], c.isDigit := List.forall_mem_singleton.mpr rfl
  refine ⟨?_, zeroDigit, ?_, rfl, fun negative => ?_⟩
  · rw [layout, if_neg (by omega), if_neg (by omega), if_pos small, remainder_of_ne behind]
    simp [ending]
  · exact fun c mem => (List.mem_append.mp mem).elim (isDigit_zeros c) (isDigit_toDigits c)
  · have length : (digitsOf s).length = k := by rw [digitsOf, List.length_map, count]
    have power : (0 : Int) - ((-n).toNat + k : Nat) = n - k := by omega
    have value : digitsValue (values ['0'] ++ (List.replicate (-n).toNat 0 ++ digitsOf s)) = s :=
      (digitsValue_zeros_append _ _).trans (value_digitsOf s)
    have read : decimal ⟨negative, values ['0'],
        values (List.replicate (-n).toNat '0' ++ Nat.toDigits 10 s), none⟩ = ⟨s, n - k⟩ := by
      rw [decimal, joined, value, List.length_append, List.length_replicate, length,
        Option.getD_none, power]
    rw [read]

/-- One digit in front of the point, and an exponent. -/
theorem parts_exponent (pos : 0 < s) (count : (Nat.toDigits 10 s).length = k)
    (outside : ¬ (-6 < n ∧ n ≤ 21)) :
    Parts n k s ((Nat.toDigits 10 s).take 1) ((Nat.toDigits 10 s).drop 1) (some (n - 1)) := by
  have nonempty : 0 < (Nat.toDigits 10 s).length := Nat.length_toDigits_pos
  have ends : ending (some (n - 1)) = 'e' :: (if n - 1 < 0 then '-' else '+') ::
      Nat.toDigits 10 (n - 1).natAbs := Decimal.toList_exponentText
  refine parts_split pos count (by omega) (by omega) ?_ ?_
  · rw [Option.getD_some]
    omega
  · rw [layout, if_neg (by omega), if_neg (by omega), if_neg (by omega)]
    simp only [← ends]
    by_cases single : k = 1
    · have behind : (Nat.toDigits 10 s).drop 1 = [] := List.drop_eq_nil_iff.mpr (by omega)
      have front : (Nat.toDigits 10 s).take 1 = Nat.toDigits 10 s := List.take_of_length_le (by omega)
      rw [if_pos single, behind, front]
      rfl
    · have behind : (Nat.toDigits 10 s).drop 1 ≠ [] := by
        rw [ne_eq, List.drop_eq_nil_iff]
        omega
      rw [if_neg single, remainder_of_ne behind]

/-- Every layout is read as parts that have the value of the digits. -/
theorem exists_parts (n : Int) (pos : 0 < s) (count : (Nat.toDigits 10 s).length = k) :
    ∃ whole fraction exponent, Parts n k s whole fraction exponent ∧
      (exponent = none ↔ -6 < n ∧ n ≤ 21) := by
  by_cases whole : k ≤ n ∧ n ≤ 21
  · exact ⟨_, _, _, parts_whole pos whole, by simp; omega⟩
  by_cases inside : 0 < n ∧ n ≤ 21
  · exact ⟨_, _, _, parts_inside pos count whole inside, by simp; omega⟩
  by_cases small : -6 < n ∧ n ≤ 0
  · exact ⟨_, _, _, parts_small small count, by simp; omega⟩
  · exact ⟨_, _, _, parts_exponent pos count (by omega), by simp; omega⟩

/-- Of the parts only an exponent has its mark. -/
theorem Parts.mark_mem_iff {whole fraction : List Char} {exponent : Option Int}
    (parts : Parts n k s whole fraction exponent) :
    'e' ∈ EcmaScript.layout n k s ↔ exponent ≠ none := by
  have noDigit : ('e').isDigit = false := by decide
  have front : 'e' ∉ whole := fun mem => by simpa [noDigit] using parts.wholeDigits _ mem
  have behind : 'e' ∉ fraction := fun mem => by simpa [noDigit] using parts.fractionDigits _ mem
  have point : 'e' ∉ (if fraction = [] then [] else '.' :: fraction) := by
    split
    · exact List.not_mem_nil
    · simpa using behind
  rw [parts.layout, remainder, List.mem_append, List.mem_append]
  cases exponent with
  | none => simpa [ending, front] using point
  | some exponent => simp [ending, Decimal.toList_exponentText]

end

end EcmaScript

/-! ### Texts that are the same -/

namespace Binary64

open Numeral

variable {x y : Binary64}

/-- The text of a finite number other than zero is its sign and the layout of its shortest decimal. -/
theorem toList_sourceText (finite : x.isFinite = true) (nonzero : x.isZero = false) :
    x.sourceText.toList = (if x.negative then ['-'] else []) ++
      EcmaScript.layout ((x.shortest .up).leadingExponent + 1) (x.shortest .up).digitText.length
        (x.shortest .up).digits := by
  cases negative : x.negative with
  | false =>
      rw [sourceText_of_positive finite nonzero negative, String.toList_ofList]
      rfl
  | true =>
      have opposite : x.neg.negative = false := by rw [neg, negative, Bool.not_true]
      have same : x.neg.shortest .up = x.shortest .up := shortest_congr .up rfl
      have text := sourceText_of_positive (x := x.neg) finite nonzero opposite
      rw [same] at text
      rw [sourceText_of_negative negative (isNaN_of_isFinite finite) nonzero, text,
        String.toList_append, if_pos rfl]
      exact congrArg ('-' :: ·) String.toList_ofList

theorem digits_shortest_pos (nonzero : x.isZero = false) : 0 < (x.shortest .up).digits :=
  digits_pos_of_contains (rank_pos nonzero) (shortest_contains .up (rank_pos nonzero))

/-- The text of a finite number other than zero is read as a decimal that rounds to the number. -/
theorem exists_numeral_sourceText (finite : x.isFinite = true) (nonzero : x.isZero = false) :
    ∃ numeral, ofChars? x.sourceText.toList = some numeral ∧ numeral.negative = x.negative ∧
      (neighbourhoodAt x.rank).Contains numeral.decimal.point := by
  obtain ⟨whole, fraction, exponent, parts, -⟩ :=
    EcmaScript.exists_parts (k := (x.shortest .up).digitText.length)
      ((x.shortest .up).leadingExponent + 1) (digits_shortest_pos nonzero) rfl
  have read := ofChars?_written x.negative exponent parts.wholeDigits parts.fractionDigits parts.form
  refine ⟨⟨x.negative, values whole, values fraction, exponent⟩, ?_, rfl, ?_⟩
  · rw [toList_sourceText finite nonzero, parts.layout]
    exact read
  · rw [Decimal.point, parts.value, Decimal.place_sub_length]
    exact shortest_contains .up (rank_pos nonzero)

theorem sourceText_of_isZero (zero : x.isZero = true) : x.sourceText = "0" := by
  have rank : x.rank = 0 := by simpa [isZero] using zero
  have finite : x.isFinite = true := by
    rw [isFinite, rank]
    decide
  simp [sourceText, isNaN_of_isFinite finite, zero, finite]

/-- The text of an infinity is no number text, and it tells the sign. -/
theorem sourceText_of_infinite (ordered : x.isNaN = false) (infinite : x.isFinite = false) :
    x.sourceText = if x.negative then "-Infinity" else "Infinity" := by
  simp [sourceText, ordered, infinite]

/-- The text of an infinite number is no numeral. -/
theorem ofChars?_sourceText_of_infinite (ordered : x.isNaN = false)
    (infinite : x.isFinite = false) : ofChars? x.sourceText.toList = none := by
  rw [sourceText_of_infinite ordered infinite]
  split <;> decide

/-- All numbers that are infinite have the same rank. -/
theorem rank_of_infinite (ordered : x.isNaN = false) (infinite : x.isFinite = false) :
    x.rank = infinityRank := by
  simp only [isFinite, isNaN, decide_eq_false_iff_not] at infinite ordered
  omega

/-- A number is its sign and its rank. -/
theorem eq_of_rank_eq (sign : x.negative = y.negative) (rank : x.rank = y.rank) : x = y := by
  cases x
  cases y
  cases sign
  cases rank
  rfl

/-- No finite number other than zero shares its text with a zero or an infinity. -/
theorem same_of_sourceText_eq (finite : x.isFinite = true) (nonzero : x.isZero = false)
    (ordered : y.isNaN = false) (same : x.sourceText = y.sourceText) : x = y := by
  obtain ⟨numeral, read, sign, contains⟩ := exists_numeral_sourceText finite nonzero
  rw [same] at read
  cases bounded : y.isFinite with
  | false =>
      rw [ofChars?_sourceText_of_infinite ordered bounded] at read
      cases read
  | true =>
      cases zero : y.isZero with
      | true =>
          have digit : ofChars? "0".toList = .some ⟨false, [0], [], none⟩ := by decide
          rw [sourceText_of_isZero zero, digit] at read
          obtain rfl := Option.some.inj read
          have digits := digits_pos_of_contains (rank_pos nonzero) contains
          exact absurd digits (by decide)
      | false =>
          obtain ⟨again, readAgain, itsSign, also⟩ := exists_numeral_sourceText bounded zero
          obtain rfl := Option.some.inj (read.symm.trans readAgain)
          exact eq_of_rank_eq (sign.symm.trans itsSign) (rank_eq_of_contains contains also)

/-- Zeros are written otherwise than infinite numbers. -/
theorem sourceText_of_isZero_ne (zero : x.isZero = true) (ordered : y.isNaN = false)
    (infinite : y.isFinite = false) : x.sourceText ≠ y.sourceText := by
  rw [sourceText_of_isZero zero, sourceText_of_infinite ordered infinite]
  split <;> decide

/-- Numbers with one text are the same number, or both are zeros. -/
theorem eq_of_sourceText_eq (ordered : x.isNaN = false) (also : y.isNaN = false)
    (same : x.sourceText = y.sourceText) : x = y ∨ (x.isZero = true ∧ y.isZero = true) := by
  cases finite : x.isFinite with
  | true =>
      cases zero : x.isZero with
      | false => exact .inl (same_of_sourceText_eq finite zero also same)
      | true =>
          cases bounded : y.isFinite with
          | false => exact absurd same (sourceText_of_isZero_ne zero also bounded)
          | true =>
              cases itsZero : y.isZero with
              | true => exact .inr ⟨rfl, rfl⟩
              | false => exact .inl (same_of_sourceText_eq bounded itsZero ordered same.symm).symm
  | false =>
      cases bounded : y.isFinite with
      | true =>
          cases itsZero : y.isZero with
          | true => exact absurd same.symm (sourceText_of_isZero_ne itsZero ordered finite)
          | false => exact .inl (same_of_sourceText_eq bounded itsZero ordered same.symm).symm
      | false =>
          rw [sourceText_of_infinite ordered finite, sourceText_of_infinite also bounded] at same
          have sign : x.negative = y.negative := by
            revert same
            cases x.negative <;> cases y.negative <;> decide
          exact .inl (eq_of_rank_eq sign ((rank_of_infinite ordered finite).trans
            (rank_of_infinite also bounded).symm))

/-- An exponent is written exactly for what lies outside the range that is written out. -/
theorem mark_mem_sourceText_iff (finite : x.isFinite = true) (nonzero : x.isZero = false) :
    'e' ∈ x.sourceText.toList ↔
      ¬ (leastWrittenOut.rank ≤ x.rank ∧ x.rank < leastTooLarge.rank) := by
  have pos := rank_pos nonzero
  have small := leastWrittenOut_le_iff pos
  have large := leastTooLarge_le_iff pos
  obtain ⟨_, _, exponent, parts, unmarked⟩ :=
    EcmaScript.exists_parts (k := (x.shortest .up).digitText.length)
      ((x.shortest .up).leadingExponent + 1) (digits_shortest_pos nonzero) rfl
  have sign : 'e' ∉ (if x.negative then ['-'] else []) := by split <;> decide
  rw [toList_sourceText finite nonzero, List.mem_append, or_iff_right sign, parts.mark_mem_iff,
    ne_eq, unmarked]
  omega

end Binary64

/-- Every number is written as ECMAScript writes it: with the fewest digits that round to it, without an
exponent exactly from a millionth up to but not including 10²¹, and with a signed one beyond. Two numbers
that are written alike are equal, or are the two zeros. -/
theorem source_texts_follow_ecmascript (x : Binary64) :
    EcmaScript.NumberText x x.sourceText ∧
      (x.isFinite = true → x.isZero = false →
        ('e' ∉ x.sourceText.toList ↔
          Binary64.leastWrittenOut.rank ≤ x.rank ∧ x.rank < Binary64.leastTooLarge.rank)) ∧
      ∀ y : Binary64, x.isNaN = false → y.isNaN = false → x.sourceText = y.sourceText →
        x = y ∨ (x.isZero = true ∧ y.isZero = true) :=
  ⟨Binary64.numberText_sourceText x,
    fun finite nonzero => not_iff_comm.mp (Binary64.mark_mem_sourceText_iff finite nonzero).symm,
    fun _ => Binary64.eq_of_sourceText_eq⟩

open Binary64 in
theorem one_and_a_half_and_the_zeros_are_written :
    (EcmaScript.NumberText (ofRatio false 3 2) "1.5" ∧
        ('e' ∉ "1.5".toList ↔ leastWrittenOut.rank ≤ (ofRatio false 3 2).rank ∧
          (ofRatio false 3 2).rank < leastTooLarge.rank)) ∧
      (zero = zero.neg ∨ (zero.isZero = true ∧ zero.neg.isZero = true)) := by
  have text : (ofRatio false 3 2).sourceText = "1.5" := by decide +kernel
  obtain ⟨written, range, -⟩ := source_texts_follow_ecmascript (ofRatio false 3 2)
  rw [text] at written range
  exact ⟨⟨written, range (by decide +kernel) (by decide +kernel)⟩,
    (source_texts_follow_ecmascript zero).2.2 zero.neg (by decide) (by decide) (by decide)⟩

end Imprint
