/-
Module: Imprint.Proofs.WholeNumbers
Purpose: Whole numbers as floating point numbers. A magnitude whose significand has all of its 53 binary
  digits is not rounded, so every integer up to 2⁵³ in either direction has a floating point number of
  its own and comes back from it.
Main exports: Binary64.nearestRank_of_normal, Binary64.units_ofRank, Binary64.toInt?_ofInt
-/
import Imprint.Binary64
import Mathlib.Algebra.Group.Nat.Defs

namespace Imprint.Binary64

variable {num significand scale : Nat} {negative : Bool}

theorem unitsPerOne_eq {first second : Nat} (sum : first + second = 1074) :
    unitsPerOne = 2 ^ first * 2 ^ second := by
  delta unitsPerOne
  generalize 1074 = total at sum ⊢
  rw [← sum, Nat.pow_eq, Nat.pow_add]

theorem unitsPerOne_pos : 0 < unitsPerOne := by decide +kernel

theorem nearestEven_mul (n : Nat) {den : Nat} (pos : 0 < den) : nearestEven (n * den) den = n := by
  simp [nearestEven, Nat.mul_div_cancel n pos, pos]

/-- The rank of a whole number whose units make up a significand with all its digits: the scale counts
the powers of two below that rank, and the significand goes on from there. -/
theorem nearestRank_of_normal (normal : 2 ^ 52 ≤ significand) (short : significand < 2 ^ 53)
    (exact : num * unitsPerOne = significand * 2 ^ scale) :
    nearestRank num 1 = scale * 2 ^ 52 + significand := by
  have pos : 0 < 2 ^ scale := Nat.two_pow_pos scale
  have digits : (significand * 2 ^ scale).log2 = scale + 52 := by
    have filled : significand * 2 ^ scale ≠ 0 := Nat.mul_ne_zero (by omega) (by omega)
    rw [Nat.log2_eq_iff filled]
    constructor
    · rw [Nat.pow_add, Nat.mul_comm]
      exact Nat.mul_le_mul_right _ normal
    · rw [Nat.add_assoc, Nat.pow_add, Nat.mul_comm (2 ^ scale)]
      exact Nat.mul_lt_mul_of_pos_right short pos
  simp only [nearestRank, exact, Nat.div_one, digits, Nat.add_sub_cancel, Nat.one_mul, Nat.pow_eq]
  rw [nearestEven_mul significand pos]

/-- The units of a finite rank that lies above the least scale. -/
theorem units_ofRank (normal : 2 ^ 52 ≤ significand) (short : significand < 2 ^ 53)
    (finite : scale < 2046) :
    (ofRank negative (scale * 2 ^ 52 + significand)).isFinite ∧
      (ofRank negative (scale * 2 ^ 52 + significand)).units = significand * 2 ^ scale := by
  have below : scale * 2 ^ 52 + significand < infinityRank := by
    simp only [infinityRank, Nat.pow_eq]
    omega
  have above : ¬ scale * 2 ^ 52 + significand < 2 ^ 52 := by omega
  have fraction : 2 ^ 52 + (scale * 2 ^ 52 + significand) % 2 ^ 52 = significand := by omega
  have power : (scale * 2 ^ 52 + significand) / 2 ^ 52 - 1 = scale := by omega
  rw [ofRank, dif_pos below]
  constructor
  · simpa [isFinite] using below
  · simp only [units, Binary64.significand, Binary64.scale, Nat.pow_eq, if_neg above, fraction, power]

theorem negative_ofRatio (num den : Nat) : (ofRatio negative num den).negative = negative := by
  unfold ofRatio ofRank
  split <;> rfl

/-- A whole number up to 2⁵³ fits a significand with all its digits. -/
theorem exists_normal (pos : 0 < num) (short : num ≤ 2 ^ 53) :
    ∃ significand scale, 2 ^ 52 ≤ significand ∧ significand < 2 ^ 53 ∧ scale < 2046 ∧
      num * unitsPerOne = significand * 2 ^ scale := by
  by_cases last : num = 2 ^ 53
  · refine ⟨2 ^ 52, 1074 + 1, by omega, by omega, by omega, ?_⟩
    rw [last, unitsPerOne_eq (Nat.add_zero 1074), Nat.pow_succ]
    omega
  · have ne : num ≠ 0 := by omega
    have digits : num.log2 ≤ 52 := by
      have fits : num.log2 < 53 := (Nat.log2_lt ne).mpr (by omega)
      omega
    -- The number is shifted up until its first digit is the first digit of the significand.
    have shift : 2 ^ num.log2 * 2 ^ (52 - num.log2) = 2 ^ 52 := by
      rw [← Nat.pow_add, Nat.add_sub_cancel' digits]
    have next : 2 ^ (num.log2 + 1) * 2 ^ (52 - num.log2) = 2 ^ 53 := by
      have exponents : num.log2 + 1 + (52 - num.log2) = 53 := by omega
      rw [← Nat.pow_add, exponents]
    refine ⟨num * 2 ^ (52 - num.log2), num.log2 + 1022, ?_, ?_, by omega, ?_⟩
    · rw [← shift]
      exact Nat.mul_le_mul_right _ (Nat.log2_self_le ne)
    · rw [← next]
      exact Nat.mul_lt_mul_of_pos_right Nat.lt_log2_self (Nat.two_pow_pos _)
    · have exponents : 52 - num.log2 + (num.log2 + 1022) = 1074 := by omega
      rw [unitsPerOne_eq exponents, Nat.mul_assoc]

/-- An integer up to 2⁵³ comes back from its floating point number. -/
theorem toInt?_ofInt {i : Int} (short : i.natAbs ≤ 2 ^ 53) : (ofInt i).toInt? = some i := by
  have whole : (ofInt i).isFinite ∧ (ofInt i).units / unitsPerOne = i.natAbs := by
    by_cases none : i = 0
    · subst none
      decide +kernel
    · have pos : 0 < i.natAbs := by omega
      obtain ⟨significand, scale, normal, fits, finite, exact⟩ := exists_normal pos short
      have rank := nearestRank_of_normal normal fits exact
      rw [ofInt, ofRatio, rank]
      refine (units_ofRank normal fits finite).imp_right fun units => ?_
      rw [units, ← exact, Nat.mul_div_cancel _ unitsPerOne_pos]
  have sign : (ofInt i).negative = decide (i < 0) := negative_ofRatio _ _
  rw [toInt?, if_pos whole.1, whole.2, sign]
  by_cases below : i < 0
  · simp only [below, decide_true, if_true, Option.some.injEq]
    omega
  · simp only [below, decide_false, Bool.false_eq_true, if_false, Option.some.injEq]
    omega

end Imprint.Binary64
