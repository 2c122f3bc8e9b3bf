/-
Module: Imprint.Proofs.NumberNotation
Purpose: The texts that ECMAScript gives to numbers. Its rule picks the fewest digits that round to the
  number and lays them out by the place of the point. Here that place is not looked at: the number is
  compared with a millionth and with 10²¹. Both are numbers that one digit is enough for, and whatever
  rounds to a lower rank is less, so the two ways to choose a layout agree.
Main exports: EcmaScript.layout, EcmaScript.Shortest, EcmaScript.NumberText,
  Binary64.leastWrittenOut_le_iff, Binary64.leastTooLarge_le_iff, Binary64.numberText_sourceText
-/
import Imprint.Binary64.SourceText
import Imprint.Proofs.ShortestDecimals

namespace Imprint

/-! ### The rule -/

namespace EcmaScript

/-- The three integers that a positive number is written from: `k` digits make up `s`, and `n` is the
place of the point behind the first of them. -/
structure Spells (x : Binary64) (n : Int) (k s : Nat) : Prop where
  nonempty : 1 ≤ k
  least : 10 ^ (k - 1) ≤ s
  most : s < 10 ^ k
  reads : (Decimal.mk s (n - k)).nearest false = x

/-- There are as few digits as possible. Where that leaves a choice for the last one, the decimal is as
near to the number as possible; two that are equally near are both allowed. -/
structure Shortest (x : Binary64) (n : Int) (k s : Nat) : Prop extends Spells x n k s where
  fewest : ∀ place count digits, Spells x place count digits → k ≤ count
  closest : ∀ digits, Spells x n k digits →
    |(Decimal.mk s (n - k)).value - x.magnitude| ≤ |(Decimal.mk digits (n - k)).value - x.magnitude|

/-- The layout of the digits: written out up to 21 places in front of the point and with at most five
zeros between the point and the first digit, and otherwise with an exponent. -/
def layout (n : Int) (k s : Nat) : List Char :=
  let digits := Nat.toDigits 10 s
  if k ≤ n ∧ n ≤ 21 then digits ++ List.replicate (n - k).toNat '0'
  else if 0 < n ∧ n ≤ 21 then digits.take n.toNat ++ '.' :: digits.drop n.toNat
  else if -6 < n ∧ n ≤ 0 then '0' :: '.' :: (List.replicate (-n).toNat '0' ++ digits)
  else
    let exponent := 'e' :: (if n - 1 < 0 then '-' else '+') :: Nat.toDigits 10 (n - 1).natAbs
    if k = 1 then digits ++ exponent
    else digits.take 1 ++ '.' :: (digits.drop 1 ++ exponent)

/-- The texts of a number. A negative one is written as its opposite with a sign. -/
inductive NumberText : Binary64 → String → Prop where
  | nan {x : Binary64} (unordered : x.isNaN = true) : NumberText x "NaN"
  | zero {x : Binary64} (zero : x.isZero = true) : NumberText x "0"
  | negative {x : Binary64} {text : String} (negative : x.negative = true)
      (ordered : x.isNaN = false) (nonzero : x.isZero = false) (opposite : NumberText x.neg text) :
      NumberText x ("-" ++ text)
  | infinity {x : Binary64} (positive : x.negative = false)
      (infinite : x.rank = Binary64.infinityRank) : NumberText x "Infinity"
  | digits {x : Binary64} {n : Int} {k s : Nat} (finite : x.isFinite = true)
      (nonzero : x.isZero = false) (shortest : Shortest x n k s) :
      NumberText x (String.ofList (layout n k s))

end EcmaScript

/-! ### Layouts -/

namespace Decimal

variable {d : Decimal}

theorem toList_exponentText {exponent : Int} :
    (exponentText exponent).toList =
      'e' :: (if exponent < 0 then '-' else '+') :: Nat.toDigits 10 exponent.natAbs := by
  cases exponent with
  | ofNat n => simp [exponentText]
  | negSucc n => simp [exponentText]

/-- Written out, the digits are laid out around the point. -/
theorem toList_positional (small : -6 ≤ d.leadingExponent) (large : d.leadingExponent < 21) :
    d.positional.toList =
      EcmaScript.layout (d.leadingExponent + 1) d.digitText.length d.digits := by
  have filled := d.length_digitText_pos
  have place : d.leadingExponent + 1 = d.exponent + d.digitText.length := by
    have back := d.place_sub_length
    omega
  have bounds : -5 ≤ d.exponent + d.digitText.length ∧ d.exponent + d.digitText.length ≤ 21 := by
    omega
  have written : Nat.toDigits 10 d.digits = d.digitText := rfl
  rw [place, positional, EcmaScript.layout]
  simp only [written]
  clear small large place written
  generalize d.digitText = text at filled bounds ⊢
  generalize d.exponent = exponent at bounds ⊢
  cases exponent with
  | ofNat zeros =>
      have zeroCount : (Int.ofNat zeros + text.length - text.length).toNat = zeros := by simp
      rw [if_pos ⟨by simp, bounds.2⟩, zeroCount, String.toList_ofList]
  | negSucc places =>
      rw [if_neg (by omega)]
      by_cases first : 0 < Int.negSucc places + (text.length : Int)
      · have unpadded : places + 1 + 1 - text.length = 0 := by omega
        have front : (Int.negSucc places + text.length).toNat = text.length - (places + 1) := by omega
        rw [if_pos ⟨first, bounds.2⟩]
        simp [unpadded, front]
      · obtain ⟨zeros, padding⟩ : ∃ zeros, places + 1 + 1 - text.length = zeros + 1 :=
          ⟨places + 1 - text.length, by omega⟩
        have front : (-(Int.negSucc places + text.length)).toNat = zeros := by omega
        have one : zeros + text.length - places = 1 := by omega
        rw [if_neg (fun inside => first inside.1), if_pos (by omega), front]
        simp [padding, List.replicate_succ, one]

/-- With an exponent, one digit stands in front of the point, and a single digit needs no point. -/
theorem toList_scientific (outside : ¬ (-6 ≤ d.leadingExponent ∧ d.leadingExponent < 21)) :
    d.scientific.toList =
      EcmaScript.layout (d.leadingExponent + 1) d.digitText.length d.digits := by
  have filled := d.length_digitText_pos
  have written : Nat.toDigits 10 d.digits = d.digitText := rfl
  rw [EcmaScript.layout, if_neg (by omega), if_neg (by omega), if_neg (by omega), scientific,
    String.toList_append, toList_exponentText]
  simp only [written, Int.add_sub_cancel]
  generalize d.digitText = text at filled
  match text with
  | [] => cases filled
  | [digit] => simp
  | digit :: next :: more => simp

end Decimal

/-! ### The choice of the layout -/

namespace Binary64

/-- What rounds to a lower rank is less. -/
theorem lt_of_contains {rank other : Nat} {point further : ℚ} (lt : rank < other)
    (contains : (neighbourhoodAt rank).Contains point)
    (also : (neighbourhoodAt other).Contains further) : point < further := by
  obtain ⟨before, rfl⟩ := Nat.exists_eq_succ_of_ne_zero (Nat.ne_zero_of_lt lt)
  have up : (border rank : ℚ) ≤ border before :=
    Nat.cast_le.mpr (border_strictMono.monotone (Nat.le_of_lt_succ lt))
  have le : point ≤ further := contains.le_high.trans (up.trans also.low_le)
  refine lt_of_le_of_ne le fun same => ?_
  exact lt.ne (rank_eq_of_contains contains (same ▸ also))

theorem shortest_congr {x y : Binary64} (tie : Tie) (same : x.rank = y.rank) :
    x.shortest tie = y.shortest tie := by
  obtain ⟨_, rank, _⟩ := x
  obtain ⟨_, _, _⟩ := y
  cases same
  rfl

/-- Where one digit is enough for a power of ten, comparing with its number compares the first digit's
power of ten. -/
theorem rank_le_iff {x power : Binary64} {tie : Tie} {exponent : Int} (pos : 0 < power.rank)
    (single : power.shortest tie = ⟨1, exponent⟩) (nonzero : 0 < x.rank) :
    power.rank ≤ x.rank ↔ exponent ≤ (x.shortest tie).leadingExponent := by
  have own := shortest_contains tie nonzero
  have its := shortest_contains tie pos
  obtain ⟨above, below⟩ := Decimal.value_bounds (digits_pos_of_contains nonzero own)
  rw [single] at its
  constructor
  · intro le
    rcases Nat.lt_or_eq_of_le le with less | same
    · have value := lt_of_contains less its own
      rw [← not_le, Decimal.point_le_point, not_le, Decimal.value_power] at value
      have powers := (zpow_lt_zpow_iff_right₀ (by norm_num)).mp (value.trans below)
      omega
    · rw [← shortest_congr tie same, single]
      have length : (Decimal.mk 1 exponent).digitText.length = 1 := length_of_digits rfl
      rw [Decimal.leadingExponent, length]
      show exponent ≤ exponent + 1 - 1
      omega
  · intro le
    by_contra less
    have value := lt_of_contains (Nat.not_le.mp less) own its
    rw [← not_le, Decimal.point_le_point, not_le, Decimal.value_power] at value
    have powers := (zpow_lt_zpow_iff_right₀ (by norm_num)).mp (above.trans_lt value)
    omega

theorem leastWrittenOut_le_iff {x : Binary64} (nonzero : 0 < x.rank) :
    leastWrittenOut.rank ≤ x.rank ↔ -6 ≤ (x.shortest .up).leadingExponent := by
  have pos : 0 < leastWrittenOut.rank := by decide +kernel
  have single : leastWrittenOut.shortest .up = ⟨1, -6⟩ := by decide +kernel
  exact rank_le_iff pos single nonzero

theorem leastTooLarge_le_iff {x : Binary64} (nonzero : 0 < x.rank) :
    leastTooLarge.rank ≤ x.rank ↔ 21 ≤ (x.shortest .up).leadingExponent := by
  have pos : 0 < leastTooLarge.rank := by decide +kernel
  have single : leastTooLarge.shortest .up = ⟨1, 21⟩ := by decide +kernel
  exact rank_le_iff pos single nonzero

/-! ### Texts -/

section

variable {x : Binary64}

theorem rank_pos (nonzero : x.isZero = false) : 0 < x.rank := by
  simp only [isZero, beq_eq_false_iff_ne] at nonzero
  exact Nat.pos_of_ne_zero nonzero

theorem isNaN_of_isFinite (finite : x.isFinite = true) : x.isNaN = false := by
  simp only [isFinite, isNaN, decide_eq_true_eq, decide_eq_false_iff_not] at finite ⊢
  omega

theorem contains_of_spells {n : Int} {k s : Nat} (finite : x.isFinite = true)
    (spells : EcmaScript.Spells x n k s) :
    (neighbourhoodAt x.rank).Contains (Decimal.mk s (n - k)).point := by
  have reads := spells.reads
  have positive : x.negative = false := by
    rw [← reads]
    exact negative_ofRatio _ _
  rw [← positive] at reads
  exact (Decimal.nearest_eq_iff finite).mp reads

/-- The shortest decimal has the digits that the rule asks for. -/
theorem shortest_spells (finite : x.isFinite = true) (nonzero : x.isZero = false)
    (positive : x.negative = false) :
    EcmaScript.Shortest x ((x.shortest .up).leadingExponent + 1)
      (x.shortest .up).digitText.length (x.shortest .up).digits := by
  have pos := rank_pos nonzero
  have own := shortest_contains .up pos
  obtain ⟨least, most⟩ := Decimal.digits_bounds (digits_pos_of_contains pos own)
  have exponent := (x.shortest .up).place_sub_length
  have reads : (x.shortest .up).nearest false = x := by
    rw [← positive]
    exact (Decimal.nearest_eq_iff finite).mpr own
  refine ⟨⟨Decimal.length_digitText_pos _, least, most, ?_⟩, ?_, ?_⟩
  · rw [exponent]
    exact reads
  · intro place count digits spells
    have fewest := shortest_fewest .up pos (contains_of_spells finite spells)
    exact fewest.trans ((Nat.length_toDigits_le_iff (by decide) spells.nonempty).mpr spells.most)
  · intro digits spells
    have contains := contains_of_spells finite spells
    rw [exponent] at contains ⊢
    exact shortest_closest pos contains

/-- The layout is chosen by the place of the point after all. -/
theorem sourceText_of_positive (finite : x.isFinite = true) (nonzero : x.isZero = false)
    (positive : x.negative = false) :
    x.sourceText = String.ofList (EcmaScript.layout ((x.shortest .up).leadingExponent + 1)
      (x.shortest .up).digitText.length (x.shortest .up).digits) := by
  have ordered := isNaN_of_isFinite finite
  have pos := rank_pos nonzero
  have small := leastWrittenOut_le_iff pos
  have large := leastTooLarge_le_iff pos
  apply String.toList_injective
  simp only [sourceText, ordered, finite, nonzero, positive, Bool.not_true, Bool.false_eq_true,
    if_false, String.toList_ofList]
  split
  · rename_i inside
    exact Decimal.toList_positional (small.mp inside.1) (by omega)
  · rename_i outside
    exact Decimal.toList_scientific (by omega)

theorem sourceText_of_negative (negative : x.negative = true) (ordered : x.isNaN = false)
    (nonzero : x.isZero = false) : x.sourceText = "-" ++ x.neg.sourceText := by
  have opposite : x.neg.negative = false := by rw [neg, negative, Bool.not_true]
  have unordered : x.neg.isNaN = false := ordered
  have unzero : x.neg.isZero = false := nonzero
  have finite : x.neg.isFinite = x.isFinite := rfl
  have rank : x.neg.rank = x.rank := rfl
  simp only [sourceText, ordered, unordered, nonzero, unzero, finite, rank, negative, opposite,
    shortest_congr .up rank, Bool.false_eq_true, if_false, if_true]
  split
  · decide
  · rfl

/-- A positive number is written as ECMAScript writes it. -/
theorem numberText_of_positive (ordered : x.isNaN = false) (nonzero : x.isZero = false)
    (positive : x.negative = false) : EcmaScript.NumberText x x.sourceText := by
  cases finite : x.isFinite with
  | true =>
      rw [sourceText_of_positive finite nonzero positive]
      exact .digits finite nonzero (shortest_spells finite nonzero positive)
  | false =>
      have infinite : x.rank = infinityRank := by
        simp only [isFinite, isNaN, decide_eq_false_iff_not] at finite ordered
        omega
      have text : x.sourceText = "Infinity" := by simp [sourceText, ordered, finite, positive]
      rw [text]
      exact .infinity positive infinite

/-- Every number is written as ECMAScript writes it. -/
theorem numberText_sourceText (x : Binary64) : EcmaScript.NumberText x x.sourceText := by
  cases ordered : x.isNaN with
  | true =>
      have text : x.sourceText = "NaN" := by simp [sourceText, ordered]
      rw [text]
      exact .nan ordered
  | false =>
      cases nonzero : x.isZero with
      | true =>
          have finite : x.isFinite = true := by
            have rank : x.rank = 0 := by simpa [isZero] using nonzero
            rw [isFinite, rank]
            decide
          have text : x.sourceText = "0" := by simp [sourceText, ordered, nonzero, finite]
          rw [text]
          exact .zero nonzero
      | false =>
          cases negative : x.negative with
          | false => exact numberText_of_positive ordered nonzero negative
          | true =>
              have opposite : x.neg.negative = false := by rw [neg, negative, Bool.not_true]
              rw [sourceText_of_negative negative ordered nonzero]
              exact .negative negative ordered nonzero
                (numberText_of_positive ordered nonzero opposite)

example : (ofRatio true (25 * 10 ^ 29) 1).sourceText = "-2.5e+30" := by decide +kernel

end

end Binary64

end Imprint
