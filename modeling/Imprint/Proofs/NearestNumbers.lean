/-
Module: Imprint.Proofs.NearestNumbers
Purpose: Rounding to the nearest floating point number. The magnitudes are ranked; halfway between two
  ranks in succession lies a border, and a real is rounded to a rank exactly when it lies between the
  two borders of that rank. A real on a border goes to the even rank of the two. So rounding depends on
  the real alone, and the reals of one rank have no gap.
Main exports: Binary64.unitsAt, Binary64.border, Binary64.neighbourhoodAt, Neighbourhood.Contains,
  Binary64.rank_eq_of_contains, Binary64.Rounded, Binary64.nearestRank_eq_iff
-/
import Imprint.Binary64.Decimal
import Imprint.Proofs.WholeNumbers
import Mathlib.Tactic.Linarith
import Mathlib.Tactic.Positivity
import Mathlib.Tactic.FieldSimp
import Mathlib.Tactic.Ring
import Mathlib.Algebra.Order.Field.Rat
import Mathlib.Order.Monotone.Basic

namespace Imprint.Binary64

/-! ### Magnitudes and borders -/

/-- The units of the magnitude with a rank. -/
def unitsAt (rank : Nat) : Nat :=
  (if rank < 2 ^ 52 then rank else 2 ^ 52 + rank % 2 ^ 52) * 2 ^ (rank / 2 ^ 52 - 1)

theorem units_eq (x : Binary64) : x.units = unitsAt x.rank := rfl

/-- The border between a rank and the next one, in quarter units. -/
def border (rank : Nat) : Nat := 2 * (unitsAt rank + unitsAt (rank + 1))

/-- The border below a rank; nothing lies below the least one. -/
def lowerBorder : Nat → Nat
  | 0 => 0
  | rank + 1 => border rank

section

variable {scale significand : Nat}

/-- Every rank is a scale and a significand, which fills its 53 binary digits above the least scale. -/
theorem exists_scaled (rank : Nat) :
    ∃ scale significand, significand < 2 ^ 53 ∧ (scale = 0 ∨ 2 ^ 52 ≤ significand) ∧
      rank = scale * 2 ^ 52 + significand :=
  ⟨rank / 2 ^ 52 - 1, rank - (rank / 2 ^ 52 - 1) * 2 ^ 52, by omega, by omega, by omega⟩

/-- A significand may also be one too large, which stands for the first one of the next scale. -/
theorem unitsAt_scaled (short : significand ≤ 2 ^ 53) (normal : scale = 0 ∨ 2 ^ 52 ≤ significand) :
    unitsAt (scale * 2 ^ 52 + significand) = significand * 2 ^ scale := by
  unfold unitsAt
  rcases Nat.lt_or_ge significand (2 ^ 52) with small | filled
  · obtain rfl : scale = 0 := normal.resolve_right (Nat.not_le.mpr small)
    have power : (0 * 2 ^ 52 + significand) / 2 ^ 52 - 1 = 0 := by omega
    rw [if_pos (by omega), power, Nat.zero_mul, Nat.zero_add]
  · rw [if_neg (by omega)]
    rcases Nat.lt_or_ge significand (2 ^ 53) with fits | last
    · have power : (scale * 2 ^ 52 + significand) / 2 ^ 52 - 1 = scale := by omega
      have fraction : 2 ^ 52 + (scale * 2 ^ 52 + significand) % 2 ^ 52 = significand := by omega
      rw [power, fraction]
    · have power : (scale * 2 ^ 52 + significand) / 2 ^ 52 - 1 = scale + 1 := by omega
      have fraction : 2 ^ 52 + (scale * 2 ^ 52 + significand) % 2 ^ 52 = 2 ^ 52 := by omega
      have carried : significand = 2 ^ 52 * 2 := by omega
      rw [power, fraction, Nat.pow_succ, carried]
      ring

theorem border_scaled (short : significand < 2 ^ 53) (normal : scale = 0 ∨ 2 ^ 52 ≤ significand) :
    border (scale * 2 ^ 52 + significand) = (4 * significand + 2) * 2 ^ scale := by
  have next : unitsAt (scale * 2 ^ 52 + significand + 1) = (significand + 1) * 2 ^ scale := by
    rw [Nat.add_assoc]
    exact unitsAt_scaled short (by omega)
  rw [border, unitsAt_scaled (Nat.le_of_lt short) normal, next]
  ring

/-- The gap above a magnitude is at least as wide as its scale. -/
theorem le_border_scaled (short : significand ≤ 2 ^ 53)
    (normal : scale = 0 ∨ 2 ^ 52 ≤ significand) :
    (4 * significand + 2) * 2 ^ scale ≤ border (scale * 2 ^ 52 + significand) := by
  rcases Nat.lt_or_ge significand (2 ^ 53) with fits | last
  · exact Nat.le_of_eq (border_scaled fits normal).symm
  · have rank : scale * 2 ^ 52 + significand = (scale + 1) * 2 ^ 52 + 2 ^ 52 := by omega
    have power : 2 ^ (scale + 1) = 2 * 2 ^ scale := Nat.pow_succ'
    rw [rank, border_scaled (by omega) (by omega), power, ← Nat.mul_assoc]
    exact Nat.mul_le_mul_right _ (by omega)

theorem unitsAt_strictMono : StrictMono unitsAt := by
  refine strictMono_nat_of_lt_succ fun rank => ?_
  obtain ⟨scale, significand, short, normal, rfl⟩ := exists_scaled rank
  rw [unitsAt_scaled (Nat.le_of_lt short) normal, Nat.add_assoc, unitsAt_scaled short (by omega)]
  exact Nat.mul_lt_mul_of_pos_right (Nat.lt_succ_self _) (Nat.two_pow_pos _)

theorem border_strictMono : StrictMono border := by
  refine strictMono_nat_of_lt_succ fun rank => ?_
  have first := unitsAt_strictMono (Nat.lt_succ_self rank)
  have second := unitsAt_strictMono (Nat.lt_succ_self (rank + 1))
  simp only [border, Nat.succ_eq_add_one] at *
  omega

theorem lowerBorder_lt {rank : Nat} (pos : 0 < rank) : lowerBorder rank < 4 * unitsAt rank := by
  obtain ⟨rank, rfl⟩ := Nat.exists_eq_succ_of_ne_zero (Nat.pos_iff_ne_zero.mp pos)
  have below := unitsAt_strictMono (Nat.lt_succ_self rank)
  simp only [lowerBorder, border, Nat.succ_eq_add_one] at *
  omega

theorem centre_lt_border (rank : Nat) : 4 * unitsAt rank < border rank := by
  have above := unitsAt_strictMono (Nat.lt_succ_self rank)
  simp only [border, Nat.succ_eq_add_one] at *
  omega

/-- Within a scale, the gap below a magnitude is as wide as the gap above. -/
theorem lowerBorder_scaled (short : significand ≤ 2 ^ 53)
    (inside : scale = 0 ∨ 2 ^ 52 < significand) (pos : 0 < significand) :
    lowerBorder (scale * 2 ^ 52 + significand) + 2 * 2 ^ scale = 4 * significand * 2 ^ scale := by
  obtain ⟨before, rfl⟩ := Nat.exists_eq_succ_of_ne_zero (Nat.pos_iff_ne_zero.mp pos)
  rw [Nat.succ_eq_add_one, ← Nat.add_assoc, lowerBorder, border_scaled short (by omega)]
  ring

/-- At the first magnitude of a scale, the gap below is half as wide as the gap above. -/
theorem lowerBorder_first (pos : 0 < scale) :
    lowerBorder (scale * 2 ^ 52 + 2 ^ 52) + 2 ^ scale = 4 * 2 ^ 52 * 2 ^ scale := by
  obtain ⟨before, rfl⟩ := Nat.exists_eq_succ_of_ne_zero (Nat.pos_iff_ne_zero.mp pos)
  have rank : (before + 1) * 2 ^ 52 + 2 ^ 52 = before * 2 ^ 52 + (2 ^ 53 - 1) + 1 := by omega
  rw [Nat.succ_eq_add_one, rank, lowerBorder, border_scaled (by omega) (by omega), Nat.pow_succ]
  ring

end

/-! ### Neighbourhoods -/

/-- A point, in quarter units, that rounds to the number of a neighbourhood. -/
def Neighbourhood.Contains (n : Neighbourhood) (point : ℚ) : Prop :=
  if n.closed then (n.low : ℚ) ≤ point ∧ point ≤ n.high else (n.low : ℚ) < point ∧ point < n.high

namespace Neighbourhood

variable {n : Neighbourhood} {first middle last : ℚ}

theorem holds_iff {factor point : Nat} (pos : 0 < factor) :
    n.holds factor point = true ↔ n.Contains (point / factor) := by
  have pos : (0 : ℚ) < factor := Nat.cast_pos.mpr pos
  unfold holds Contains
  split
  · rw [le_div_iff₀ pos, div_le_iff₀ pos]
    norm_cast
    simp
  · rw [lt_div_iff₀ pos, div_lt_iff₀ pos]
    norm_cast
    simp

theorem Contains.low_le (contains : n.Contains middle) : (n.low : ℚ) ≤ middle := by
  unfold Contains at contains
  split at contains
  · exact contains.1
  · exact contains.1.le

theorem Contains.le_high (contains : n.Contains middle) : middle ≤ n.high := by
  unfold Contains at contains
  split at contains
  · exact contains.2
  · exact contains.2.le

theorem contains_of_lt (low : (n.low : ℚ) < middle) (high : middle < n.high) :
    n.Contains middle := by
  unfold Contains
  split
  · exact ⟨low.le, high.le⟩
  · exact ⟨low, high⟩

/-- A neighbourhood has no gaps. -/
theorem Contains.between (left : n.Contains first) (right : n.Contains last)
    (above : first ≤ middle) (below : middle ≤ last) : n.Contains middle := by
  unfold Contains at *
  split at left
  · rename_i closed
    rw [if_pos closed] at right ⊢
    exact ⟨left.1.trans above, below.trans right.2⟩
  · rename_i opened
    rw [if_neg opened] at right ⊢
    exact ⟨left.1.trans_le above, below.trans_lt right.2⟩

end Neighbourhood

/-- The reals that round to a rank, in quarter units: from border to border, with both ends when the rank
is even. -/
def neighbourhoodAt (rank : Nat) : Neighbourhood :=
  ⟨lowerBorder rank, 4 * unitsAt rank, border rank, rank % 2 == 0⟩

/-- The neighbourhood of a number other than zero is that of its rank. -/
theorem neighbourhood_eq {x : Binary64} (nonzero : x.rank ≠ 0) :
    x.neighbourhood = neighbourhoodAt x.rank := by
  obtain ⟨scale, significand, short, normal, rank⟩ := exists_scaled x.rank
  have scaleOf : x.scale = scale := by
    simp only [Binary64.scale, Nat.pow_eq]
    omega
  have significandOf : x.significand = significand := by
    simp only [Binary64.significand, Nat.pow_eq]
    split <;> omega
  have unitsOf : x.units = significand * 2 ^ scale := by
    rw [units, scaleOf, significandOf, Nat.pow_eq]
  have parity : (significand % 2 == 0) = (x.rank % 2 == 0) := by
    rw [rank]
    congr 1
    omega
  have centre : 4 * (significand * 2 ^ scale) = 4 * significand * 2 ^ scale := by ring
  rw [neighbourhood, neighbourhoodAt, scaleOf, significandOf, unitsOf, parity, rank,
    border_scaled short normal, unitsAt_scaled short.le normal]
  congr 1
  · by_cases first : significand = 2 ^ 52 ∧ 0 < scale
    · obtain ⟨rfl, pos⟩ := first
      have gap := lowerBorder_first pos
      simp only [Nat.pow_eq, beq_self_eq_true, pos, decide_true, Bool.and_self, if_true]
      omega
    · have gap := lowerBorder_scaled short.le (by omega : scale = 0 ∨ 2 ^ 52 < significand)
        (by omega)
      have wide : ¬ (significand == Nat.pow 2 52 && decide (0 < scale)) = true := by
        simpa using first
      rw [if_neg wide, Nat.pow_eq]
      omega
  · rw [Nat.pow_eq]
    ring

/-- No real lies in the neighbourhoods of two ranks. -/
theorem rank_eq_of_contains {rank other : Nat} {point : ℚ}
    (contains : (neighbourhoodAt rank).Contains point)
    (also : (neighbourhoodAt other).Contains point) : rank = other := by
  -- Of two ranks the lower one ends before the higher one begins, unless they share a border.
  have ordered {rank other : Nat} (contains : (neighbourhoodAt rank).Contains point)
      (also : (neighbourhoodAt other).Contains point) : ¬ rank < other := by
    intro lt
    obtain ⟨before, rfl⟩ := Nat.exists_eq_succ_of_ne_zero (Nat.ne_zero_of_lt lt)
    have le : rank ≤ before := Nat.le_of_lt_succ lt
    have up : (border before : ℚ) ≤ border rank := also.low_le.trans contains.le_high
    have same : rank = before :=
      le.antisymm (border_strictMono.le_iff_le.mp (Nat.cast_le.mp up))
    subst same
    unfold Neighbourhood.Contains at contains also
    simp only [neighbourhoodAt, lowerBorder, beq_iff_eq, Nat.succ_eq_add_one] at contains also
    split at contains
    · rw [if_neg (by omega)] at also
      exact absurd (contains.2.trans_lt also.1) (lt_irrefl _)
    · split at also
      · exact absurd (contains.2.trans_le also.1) (lt_irrefl _)
      · exact absurd (contains.2.trans also.1) (lt_irrefl _)
  exact Nat.le_antisymm (Nat.not_lt.mp (ordered also contains)) (Nat.not_lt.mp (ordered contains also))

/-! ### Rounding -/

/-- The nearest integer is at most a half away, and less than that if it is odd. -/
theorem nearestEven_spec (num : Nat) {den : Nat} (pos : 0 < den) :
    2 * (nearestEven num den * den) ≤ 2 * num + den ∧
      2 * num ≤ 2 * (nearestEven num den * den) + den ∧
      (nearestEven num den % 2 ≠ 0 →
        2 * (nearestEven num den * den) < 2 * num + den ∧
          2 * num < 2 * (nearestEven num den * den) + den) := by
  have parts := Nat.div_add_mod num den
  have less := Nat.mod_lt num pos
  have next : (num / den + 1) * den = den * (num / den) + den := by ring
  have here : num / den * den = den * (num / den) := Nat.mul_comm _ _
  simp only [nearestEven]
  split
  · rw [here]
    omega
  split
  · rw [next]
    omega
  · rcases Nat.mod_two_eq_zero_or_one (num / den) with even | odd
    · rw [even, Nat.add_zero, here]
      omega
    · rw [odd, next]
      omega

/-- The scale and the significand that a quotient of units is rounded to. The significand is at most a
half away, less than that if it is odd, and before rounding it had all its binary digits unless the scale
is the least one. -/
structure Rounded (scaled den scale significand : Nat) : Prop where
  short : significand ≤ 2 ^ 53
  filled : scale = 0 ∨ 2 ^ 52 * (den * 2 ^ scale) ≤ scaled
  low : 2 * (significand * (den * 2 ^ scale)) ≤ 2 * scaled + den * 2 ^ scale
  high : 2 * scaled ≤ 2 * (significand * (den * 2 ^ scale)) + den * 2 ^ scale
  strict : significand % 2 ≠ 0 →
    2 * (significand * (den * 2 ^ scale)) < 2 * scaled + den * 2 ^ scale ∧
      2 * scaled < 2 * (significand * (den * 2 ^ scale)) + den * 2 ^ scale

section

variable {num den : Nat}

/-- The scale leaves 53 binary digits to the significand. -/
theorem lt_of_scale (scaled : Nat) (pos : 0 < den) :
    scaled < 2 ^ 53 * (den * 2 ^ ((scaled / den).log2 - 52)) := by
  have exponent : (scaled / den).log2 + 1 ≤ 53 + ((scaled / den).log2 - 52) := by omega
  have whole : scaled / den < 2 ^ (53 + ((scaled / den).log2 - 52)) :=
    Nat.lt_of_lt_of_le Nat.lt_log2_self (Nat.pow_le_pow_right (by omega) exponent)
  rw [Nat.div_lt_iff_lt_mul pos, Nat.pow_add] at whole
  refine Nat.lt_of_lt_of_eq whole ?_
  ring

/-- Above the least scale the first one of them is set. -/
theorem le_of_scale {scaled : Nat} (pos : 0 < den) (above : 52 < (scaled / den).log2) :
    2 ^ 52 * (den * 2 ^ ((scaled / den).log2 - 52)) ≤ scaled := by
  have exponent : 52 + ((scaled / den).log2 - 52) = (scaled / den).log2 := by omega
  have filled : scaled / den ≠ 0 := by
    intro none
    simp [none] at above
  have whole := Nat.log2_self_le filled
  rw [← exponent, Nat.le_div_iff_mul_le pos, Nat.pow_add] at whole
  refine Nat.le_trans (Nat.le_of_eq ?_) whole
  ring

theorem exists_rounded (num : Nat) (pos : 0 < den) :
    ∃ scale significand, nearestRank num den = scale * 2 ^ 52 + significand ∧
      Rounded (num * unitsPerOne) den scale significand := by
  refine ⟨((num * unitsPerOne) / den).log2 - 52, _, rfl, ?_⟩
  generalize num * unitsPerOne = scaled
  have less := lt_of_scale scaled pos
  have filled : (scaled / den).log2 - 52 = 0 ∨
      2 ^ 52 * (den * 2 ^ ((scaled / den).log2 - 52)) ≤ scaled := by
    rcases Nat.lt_or_ge 52 (scaled / den).log2 with above | low
    · exact .inr (le_of_scale pos above)
    · exact .inl (Nat.sub_eq_zero_of_le low)
  generalize (scaled / den).log2 - 52 = scale at less filled ⊢
  obtain ⟨low, high, strict⟩ := nearestEven_spec scaled (Nat.mul_pos pos (Nat.two_pow_pos scale))
  refine ⟨?_, filled, low, high, strict⟩
  show nearestEven scaled (den * 2 ^ scale) ≤ 2 ^ 53
  by_contra large
  have more : (2 ^ 53 + 1) * (den * 2 ^ scale) ≤
      nearestEven scaled (den * 2 ^ scale) * (den * 2 ^ scale) :=
    Nat.mul_le_mul_right _ (Nat.not_le.mp large)
  rw [Nat.add_mul, Nat.one_mul] at more
  omega

namespace Rounded

variable {scaled scale significand : Nat}

theorem normal (rounded : Rounded scaled den scale significand) (pos : 0 < den) :
    scale = 0 ∨ 2 ^ 52 ≤ significand := by
  have width : 0 < den * 2 ^ scale := Nat.mul_pos pos (Nat.two_pow_pos scale)
  have low := rounded.low
  have high := rounded.high
  refine rounded.filled.imp_right fun filled => ?_
  by_contra small
  have less : (significand + 1) * (den * 2 ^ scale) ≤ 2 ^ 52 * (den * 2 ^ scale) :=
    Nat.mul_le_mul_right _ (Nat.not_le.mp small)
  rw [Nat.add_mul, Nat.one_mul] at less
  omega

/-- The border above the rank is a half away or more. -/
theorem upper (rounded : Rounded scaled den scale significand) (pos : 0 < den) :
    4 * (significand * (den * 2 ^ scale)) + 2 * (den * 2 ^ scale) ≤
      border (scale * 2 ^ 52 + significand) * den := by
  have border := Nat.mul_le_mul_right den (le_border_scaled rounded.short (rounded.normal pos))
  refine Nat.le_trans (Nat.le_of_eq ?_) border
  ring

/-- The border below the rank is a half away or more, or what was rounded lies above the rank. -/
theorem lower (rounded : Rounded scaled den scale significand) (pos : 0 < den) :
    significand = 0 ∧ lowerBorder (scale * 2 ^ 52 + significand) = 0 ∨
      lowerBorder (scale * 2 ^ 52 + significand) * den + 2 * (den * 2 ^ scale) =
        4 * (significand * (den * 2 ^ scale)) ∨
      lowerBorder (scale * 2 ^ 52 + significand) * den < 4 * scaled := by
  have normal := rounded.normal pos
  rcases Nat.eq_zero_or_pos significand with rfl | some
  · obtain rfl : scale = 0 := by omega
    exact .inl ⟨rfl, rfl⟩
  by_cases inside : scale = 0 ∨ 2 ^ 52 < significand
  · have gap := congrArg (· * den) (lowerBorder_scaled rounded.short inside some)
    have ends : 4 * significand * 2 ^ scale * den = 4 * (significand * (den * 2 ^ scale)) := by ring
    have shift : 2 * 2 ^ scale * den = 2 * (den * 2 ^ scale) := by ring
    simp only [Nat.add_mul, ends, shift] at gap
    exact .inr (.inl gap)
  · -- Below the first magnitude of a scale the gap is narrow, but nothing below it has that scale.
    obtain rfl : significand = 2 ^ 52 := by omega
    have gap := congrArg (· * den) (lowerBorder_first (by omega : 0 < scale))
    have ends : 4 * 2 ^ 52 * 2 ^ scale * den = 4 * (2 ^ 52 * (den * 2 ^ scale)) := by ring
    have shift : 2 ^ scale * den = den * 2 ^ scale := Nat.mul_comm _ _
    simp only [Nat.add_mul, ends, shift] at gap
    have reached := rounded.filled.resolve_left (by omega)
    have width : 0 < den * 2 ^ scale := Nat.mul_pos pos (Nat.two_pow_pos scale)
    omega

end Rounded

/-- A magnitude lies in the neighbourhood of the rank that it is rounded to. -/
theorem holds_nearestRank (num : Nat) (pos : 0 < den) :
    (neighbourhoodAt (nearestRank num den)).holds den (4 * (num * unitsPerOne)) = true := by
  obtain ⟨scale, significand, rank, rounded⟩ := exists_rounded num pos
  have lower := rounded.lower pos
  have upper := rounded.upper pos
  obtain ⟨-, -, low, high, strict⟩ := rounded
  have parity : nearestRank num den % 2 = significand % 2 := by omega
  rw [← rank] at lower upper
  simp only [Neighbourhood.holds, neighbourhoodAt, parity]
  by_cases even : significand % 2 = 0
  · simp only [even, beq_self_eq_true, if_true, Bool.and_eq_true, decide_eq_true_eq]
    rcases lower with ⟨-, zero⟩ | half | above
    · rw [zero]
      omega
    · omega
    · omega
  · have strictly := strict even
    simp only [beq_iff_eq, even, if_false, Bool.and_eq_true, decide_eq_true_eq]
    omega

/-- What a magnitude is rounded to: the rank in whose neighbourhood it lies. -/
theorem nearestRank_eq_iff {rank : Nat} (pos : 0 < den) :
    nearestRank num den = rank ↔
      (neighbourhoodAt rank).Contains (4 * unitsPerOne * (num / den : ℚ)) := by
  have contains := (Neighbourhood.holds_iff pos).mp (holds_nearestRank num pos)
  have point : ((4 * (num * unitsPerOne) : Nat) : ℚ) / den = 4 * unitsPerOne * (num / den) := by
    push_cast
    ring
  rw [point] at contains
  constructor
  · rintro rfl
    exact contains
  · exact rank_eq_of_contains contains

end

end Imprint.Binary64
