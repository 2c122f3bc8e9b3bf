/-
Module: Imprint.Proofs.ShortestDecimals
Purpose: The shortest decimal of a number. It rounds to that number, no decimal with fewer digits does,
  and of the decimals with its exponent that round to the number it is a nearest one. The search starts
  on a grid so coarse that one digit is enough there, and it ends at the latest on a grid so fine that
  every neighbourhood has a point of it.
Main exports: Decimal.value, Decimal.nearest, Decimal.nearest_eq_iff, Binary64.shortest_contains,
  Binary64.shortest_fewest, Binary64.shortest_closest
-/
import Imprint.Proofs.NearestNumbers

namespace Imprint

/-! ### Values of decimals -/

namespace Decimal

/-- The value of a decimal. -/
def value (d : Decimal) : ℚ := d.digits * 10 ^ d.exponent

/-- A decimal is the quotient of two natural numbers. -/
def numerator (d : Decimal) : Nat := d.digits * 10 ^ d.exponent.toNat

def denominator (d : Decimal) : Nat := 10 ^ (-d.exponent).toNat

/-- The floating point number nearest to a decimal with a sign. -/
def nearest (negative : Bool) (d : Decimal) : Binary64 :=
  .ofRatio negative d.numerator d.denominator

/-- A decimal in quarter units. -/
def point (d : Decimal) : ℚ := 4 * Binary64.unitsPerOne * d.value

variable {d other : Decimal}

theorem denominator_pos (d : Decimal) : 0 < d.denominator := Nat.pow_pos (by decide)

/-- The value of a decimal is the quotient of its numerator and denominator. -/
theorem value_eq_div (d : Decimal) : d.value = d.numerator / d.denominator := by
  obtain ⟨digits, exponent⟩ := d
  cases exponent with
  | ofNat up => simp [value, numerator, denominator]
  | negSucc down =>
      simp [value, numerator, denominator, zpow_negSucc, div_eq_mul_inv]

/-- The decimals that round to a finite number are those in the neighbourhood of its rank. -/
theorem nearest_eq_iff {x : Binary64} (finite : x.isFinite = true) :
    d.nearest x.negative = x ↔ (Binary64.neighbourhoodAt x.rank).Contains d.point := by
  have below : x.rank < Binary64.infinityRank := by simpa [Binary64.isFinite] using finite
  rw [point, value_eq_div, ← Binary64.nearestRank_eq_iff d.denominator_pos, nearest,
    Binary64.ofRatio, Binary64.ofRank]
  generalize Binary64.nearestRank d.numerator d.denominator = rank
  obtain ⟨negative, own, bound⟩ := x
  split
  · simp
  · rename_i large
    have differ : own ≠ Binary64.infinityRank := Nat.ne_of_lt below
    have other : rank ≠ own := fun same => large (same ▸ below)
    simp [differ.symm, other]

theorem point_pos_scale : (0 : ℚ) < 4 * Binary64.unitsPerOne := by
  have pos : (0 : ℚ) < Binary64.unitsPerOne := Nat.cast_pos.mpr Binary64.unitsPerOne_pos
  linarith

/-- The points of decimals are ordered as their values are. -/
theorem point_le_point : d.point ≤ other.point ↔ d.value ≤ other.value :=
  mul_le_mul_iff_of_pos_left point_pos_scale

/-- The place behind the first digit, counted back by the number of digits. -/
theorem place_sub_length (d : Decimal) :
    d.leadingExponent + 1 - d.digitText.length = d.exponent := by
  rw [leadingExponent]
  omega

theorem length_digitText_pos (d : Decimal) : 0 < d.digitText.length := Nat.length_toDigits_pos

/-- What the number of digits tells about them. -/
theorem digits_bounds (pos : 0 < d.digits) :
    10 ^ (d.digitText.length - 1) ≤ d.digits ∧ d.digits < 10 ^ d.digitText.length := by
  have filled := d.length_digitText_pos
  constructor
  · by_cases single : d.digitText.length = 1
    · rw [single]
      exact pos
    · have fewer : ¬ d.digitText.length ≤ d.digitText.length - 1 := by omega
      rw [digitText, Nat.length_toDigits_le_iff (by decide) (by rw [digitText] at *; omega)] at fewer
      exact Nat.not_lt.mp fewer
  · exact (Nat.length_toDigits_le_iff (by decide) filled).mp (Nat.le_refl _)

/-- A decimal lies between the power of ten of its first digit and the next one. -/
theorem value_bounds (pos : 0 < d.digits) :
    (10 : ℚ) ^ d.leadingExponent ≤ d.value ∧ d.value < 10 ^ (d.leadingExponent + 1) := by
  obtain ⟨low, high⟩ := digits_bounds pos
  have filled := d.length_digitText_pos
  have first : d.leadingExponent = (d.digitText.length - 1 : Nat) + d.exponent := by
    rw [leadingExponent]
    omega
  have next : d.leadingExponent + 1 = d.digitText.length + d.exponent := by
    rw [leadingExponent]
    omega
  have power : (0 : ℚ) < 10 ^ d.exponent := zpow_pos (by norm_num) _
  rw [next, first, value, zpow_add₀ (by norm_num), zpow_add₀ (by norm_num), zpow_natCast,
    zpow_natCast]
  constructor
  · exact mul_le_mul_of_nonneg_right (by exact_mod_cast low) power.le
  · exact mul_lt_mul_of_pos_right (by exact_mod_cast high) power

/-- A power of ten as a decimal. -/
theorem value_power (exponent : Int) : (Decimal.mk 1 exponent).value = 10 ^ exponent := by
  simp [value]

end Decimal

/-! ### Grids -/

namespace Binary64

-- The least power of ten is never written out.
attribute [local irreducible] lowestPower

/-- The multiple of a grid. -/
def gridPoint (step digits : Nat) : Decimal := ⟨digits, step - lowestPower⟩

/-- How many parts of a quarter unit are counted, so that all grids are whole. -/
def parts : Nat := Nat.pow 10 lowestPower

theorem parts_pos : 0 < parts := Nat.pow_pos (by decide)

theorem cast_parts : (parts : ℚ) = 10 ^ lowestPower := by
  rw [parts, Nat.pow_eq, Nat.cast_pow, Nat.cast_ofNat]

/-- The width of a grid, in these parts. -/
def gridWidth (step : Nat) : Nat := Nat.pow 10 step * (4 * unitsPerOne)

theorem gridWidth_pos (step : Nat) : 0 < gridWidth step :=
  Nat.mul_pos (Nat.pow_pos (by decide)) (Nat.mul_pos (by decide) unitsPerOne_pos)

/-- The points of a grid lie a grid width apart. -/
theorem point_gridPoint (step digits : Nat) :
    (gridPoint step digits).point = (digits * gridWidth step : Nat) / parts := by
  rw [Decimal.point, Decimal.value, gridPoint, gridWidth, cast_parts, Nat.pow_eq,
    zpow_sub₀ (by norm_num), zpow_natCast, zpow_natCast]
  push_cast
  ring

/-- More digits on a grid make a larger point. -/
theorem gridPoint_mono (step : Nat) {digits others : Nat} (le : digits ≤ others) :
    (gridPoint step digits).point ≤ (gridPoint step others).point := by
  rw [point_gridPoint, point_gridPoint]
  exact div_le_div_of_nonneg_right (Nat.cast_le.mpr (Nat.mul_le_mul_right _ le)) (Nat.cast_nonneg _)

variable {tie : Tie} {n : Neighbourhood} {step digits : Nat}

/-- Whether a neighbourhood contains a point of a grid can be told from whole numbers. -/
theorem holds_gridPoint :
    n.holds parts (digits * gridWidth step) = true ↔
      n.Contains (gridPoint step digits).point := by
  rw [point_gridPoint]
  exact Neighbourhood.holds_iff parts_pos

/-- The last multiple of a grid that is not above the centre. -/
def lastBelow (n : Neighbourhood) (step : Nat) : Nat :=
  n.centre * parts / gridWidth step

/-- The last point of a grid below a centre is not above it. -/
theorem lastBelow_le (n : Neighbourhood) (step : Nat) :
    (gridPoint step (lastBelow n step)).point ≤ n.centre := by
  rw [point_gridPoint, div_le_iff₀ (Nat.cast_pos.mpr parts_pos)]
  exact_mod_cast Nat.div_mul_le_self _ _

/-- The point behind it is. -/
theorem lt_lastBelow (n : Neighbourhood) (step : Nat) :
    (n.centre : ℚ) < (gridPoint step (lastBelow n step + 1)).point := by
  rw [point_gridPoint, lt_div_iff₀ (Nat.cast_pos.mpr parts_pos)]
  exact_mod_cast Nat.lt_mul_of_div_lt (Nat.lt_succ_self _) (gridWidth_pos step)

/-- The point of a grid that is taken: it lies next to the centre, and on the nearer side if both
sides have one. -/
structure Taken (n : Neighbourhood) (step digits : Nat) : Prop where
  contains : n.Contains (gridPoint step digits).point
  beside : digits = lastBelow n step ∨ digits = lastBelow n step + 1
  closest : ∀ others, others = lastBelow n step ∨ others = lastBelow n step + 1 →
    n.Contains (gridPoint step others).point →
      |(gridPoint step digits).point - n.centre| ≤ |(gridPoint step others).point - n.centre|

/-- How far the centre is from the multiple below it. -/
def toBelow (n : Neighbourhood) (step : Nat) : Nat :=
  n.centre * parts - lastBelow n step * gridWidth step

/-- How far the centre is from the multiple above it. -/
def toAbove (n : Neighbourhood) (step : Nat) : Nat :=
  (lastBelow n step + 1) * gridWidth step - n.centre * parts

/-- How far the last point below a centre is from it. -/
theorem distance_below (n : Neighbourhood) (step : Nat) :
    |(gridPoint step (lastBelow n step)).point - n.centre| = toBelow n step / parts := by
  have factor : (parts : ℚ) ≠ 0 := Nat.cast_ne_zero.mpr parts_pos.ne'
  have below : lastBelow n step * gridWidth step ≤ n.centre * parts := Nat.div_mul_le_self _ _
  rw [abs_of_nonpos (sub_nonpos.mpr (lastBelow_le n step)), point_gridPoint, toBelow,
    Nat.cast_sub below, Nat.cast_mul n.centre, eq_div_iff factor, neg_sub, sub_mul,
    div_mul_cancel₀ _ factor]

/-- How far the first point above a centre is from it. -/
theorem distance_above (n : Neighbourhood) (step : Nat) :
    |(gridPoint step (lastBelow n step + 1)).point - n.centre| = toAbove n step / parts := by
  have factor : (parts : ℚ) ≠ 0 := Nat.cast_ne_zero.mpr parts_pos.ne'
  have above : n.centre * parts ≤ (lastBelow n step + 1) * gridWidth step :=
    Nat.le_of_lt (Nat.lt_mul_of_div_lt (Nat.lt_succ_self _) (gridWidth_pos step))
  rw [abs_of_nonneg (sub_nonneg.mpr (lt_lastBelow n step).le), point_gridPoint, toAbove,
    Nat.cast_sub above, Nat.cast_mul n.centre, eq_div_iff factor, sub_mul,
    div_mul_cancel₀ _ factor]

theorem distance_le {first second : Nat} (le : first ≤ second) :
    (first : ℚ) / parts ≤ second / parts :=
  div_le_div_of_nonneg_right (Nat.cast_le.mpr le) (Nat.cast_nonneg _)

/-- The last point below the centre is taken when it lies inside and the one above is no nearer. -/
theorem taken_below (contains : n.holds parts (lastBelow n step * gridWidth step) = true)
    (nearer : n.holds parts ((lastBelow n step + 1) * gridWidth step) = true →
      toBelow n step ≤ toAbove n step) : Taken n step (lastBelow n step) := by
  rw [holds_gridPoint] at contains nearer
  refine ⟨contains, .inl rfl, ?_⟩
  rintro others (rfl | rfl) also
  · exact le_rfl
  · rw [distance_below, distance_above]
    exact distance_le (nearer also)

/-- The first point above the centre is taken when it lies inside and the one below is no nearer. -/
theorem taken_above (contains : n.holds parts ((lastBelow n step + 1) * gridWidth step) = true)
    (nearer : n.holds parts (lastBelow n step * gridWidth step) = true →
      toAbove n step ≤ toBelow n step) : Taken n step (lastBelow n step + 1) := by
  rw [holds_gridPoint] at contains nearer
  refine ⟨contains, .inr rfl, ?_⟩
  rintro others (rfl | rfl) also
  · rw [distance_below, distance_above]
    exact distance_le (nearer also)
  · exact le_rfl

/-- What is found on a grid. -/
theorem taken_of_onGrid? (found : onGrid? tie n step = some digits) : Taken n step digits := by
  simp only [onGrid?, ← parts.eq_1, ← gridWidth.eq_1, ← lastBelow.eq_1, ← toBelow.eq_1,
    ← toAbove.eq_1] at found
  split at found
  · cases found
  · rename_i below above
    cases found
    exact taken_below below fun also => absurd also (Bool.eq_false_iff.mp above)
  · rename_i below above
    cases found
    exact taken_above above fun also => absurd also (Bool.eq_false_iff.mp below)
  · rename_i below above
    split at found
    · rename_i less
      cases found
      exact taken_below below fun _ => less.le
    · rename_i notLess
      split at found
      · rename_i less
        cases found
        exact taken_above above fun _ => less.le
      · rename_i notMore
        have same : toBelow n step = toAbove n step :=
          Nat.le_antisymm (Nat.not_lt.mp notMore) (Nat.not_lt.mp notLess)
        cases tie with
        | up =>
            cases found
            exact taken_above above fun _ => same.ge
        | toEven =>
            simp only at found
            split at found <;> cases found
            · exact taken_below below fun _ => same.le
            · exact taken_above above fun _ => same.ge

/-- Nothing is found on a grid only where both sides have nothing. -/
theorem not_contains_of_onGrid? (nothing : onGrid? tie n step = none) {others : Nat}
    (beside : others = lastBelow n step ∨ others = lastBelow n step + 1) :
    ¬ n.Contains (gridPoint step others).point := by
  simp only [onGrid?, ← parts.eq_1, ← gridWidth.eq_1, ← lastBelow.eq_1] at nothing
  rw [← holds_gridPoint]
  split at nothing
  · rename_i below above
    rcases beside with rfl | rfl
    · rw [below]
      exact Bool.false_ne_true
    · rw [above]
      exact Bool.false_ne_true
  · cases nothing
  · cases nothing
  · split at nothing
    · cases nothing
    · split at nothing
      · cases nothing
      · cases tie <;> cases nothing

/-- A grid without points on both sides of the centre has no points in the neighbourhood at all. -/
theorem not_contains_of_grid (centred : n.Contains n.centre)
    (nothing : onGrid? tie n step = none) (others : Nat) :
    ¬ n.Contains (gridPoint step others).point := by
  intro contains
  rcases Nat.lt_or_ge (lastBelow n step) others with above | below
  · exact not_contains_of_onGrid? nothing (.inr rfl)
      (centred.between contains (lt_lastBelow n step).le (gridPoint_mono step above))
  · exact not_contains_of_onGrid? nothing (.inl rfl)
      (contains.between centred (gridPoint_mono step below) (lastBelow_le n step))

/-- The point that is taken is as near to the centre as any other one of its grid. -/
theorem Taken.nearest (taken : Taken n step digits) (centred : n.Contains n.centre) {others : Nat}
    (contains : n.Contains (gridPoint step others).point) :
    |(gridPoint step digits).point - n.centre| ≤ |(gridPoint step others).point - n.centre| := by
  have low := lastBelow_le n step
  have high := lt_lastBelow n step
  rcases Nat.lt_or_ge (lastBelow n step) others with above | below
  · have further := gridPoint_mono step above
    have inside := centred.between contains high.le further
    refine (taken.closest _ (.inr rfl) inside).trans ?_
    rw [abs_of_nonneg (by linarith), abs_of_nonneg (by linarith)]
    linarith
  · have further := gridPoint_mono step below
    have inside := contains.between centred further low
    refine (taken.closest _ (.inl rfl) inside).trans ?_
    rw [abs_of_nonpos (by linarith), abs_of_nonpos (by linarith)]
    linarith

/-! ### The search -/

/-- The search ends on the coarsest grid, from the first one downwards, that has a point. -/
theorem exists_coarsest (first : Nat) (finest : onGrid? tie n 0 ≠ none) :
    ∃ step digits, step ≤ first ∧ onGrid? tie n step = some digits ∧
      coarsest tie n first = gridPoint step digits ∧
      ∀ higher, step < higher → higher ≤ first → onGrid? tie n higher = none := by
  induction first with
  | zero =>
      obtain ⟨digits, found⟩ := Option.ne_none_iff_exists'.mp finest
      refine ⟨0, digits, le_rfl, found, ?_, fun higher above below => by omega⟩
      simp [coarsest, found, gridPoint]
  | succ first ih =>
      cases found : onGrid? tie n (first + 1) with
      | some digits =>
          refine ⟨first + 1, digits, le_rfl, found, ?_, fun higher above below => by omega⟩
          simp only [coarsest, found, gridPoint]
      | none =>
          obtain ⟨step, digits, le, taken, eq, nothing⟩ := ih
          refine ⟨step, digits, Nat.le_succ_of_le le, taken, ?_, fun higher above below => ?_⟩
          · simp only [coarsest, found, eq]
          · rcases Nat.lt_or_eq_of_le below with less | rfl
            · exact nothing higher above (Nat.le_of_lt_succ less)
            · exact found

/-! ### The shortest decimal -/

section

variable {x : Binary64} {d : Decimal}

/-- The grid that the search starts on. -/
def firstGrid (x : Binary64) : Nat :=
  lowestPower + (Nat.toDigits 10 (x.units / unitsPerOne)).length

/-- The neighbourhood of a number contains its centre. -/
theorem centred {rank : Nat} (pos : 0 < rank) :
    (neighbourhoodAt rank).Contains (neighbourhoodAt rank).centre :=
  Neighbourhood.contains_of_lt (Nat.cast_lt.mpr (lowerBorder_lt pos))
    (Nat.cast_lt.mpr (centre_lt_border rank))

/-- What rounds to a rank other than zero is positive. -/
theorem pos_of_contains {rank : Nat} (pos : 0 < rank) {point : ℚ}
    (contains : (neighbourhoodAt rank).Contains point) : 0 < point := by
  refine lt_of_lt_of_le ?_ contains.low_le
  obtain ⟨before, rfl⟩ := Nat.exists_eq_succ_of_ne_zero (Nat.pos_iff_ne_zero.mp pos)
  have above := unitsAt_strictMono (Nat.lt_succ_self before)
  refine Nat.cast_pos.mpr ?_
  simp only [neighbourhoodAt, lowerBorder, border, Nat.succ_eq_add_one] at *
  omega

/-- What rounds to a positive number is positive. -/
theorem digits_pos_of_contains {rank : Nat} (pos : 0 < rank)
    (contains : (neighbourhoodAt rank).Contains d.point) : 0 < d.digits := by
  have positive := pos_of_contains pos contains
  by_contra none
  have zero : d.digits = 0 := by omega
  have nothing : d.point = 0 := by
    rw [Decimal.point, Decimal.value, zero, Nat.cast_zero, zero_mul, mul_zero]
  exact absurd nothing positive.ne'

/-- The finest grid is narrower than a quarter unit. -/
theorem finest_found (tie : Tie) {rank : Nat} (pos : 0 < rank) :
    onGrid? tie (neighbourhoodAt rank) 0 ≠ none := by
  intro nothing
  refine not_contains_of_onGrid? nothing (.inl rfl) (Neighbourhood.contains_of_lt ?_ ?_)
  · have narrow : gridWidth 0 ≤ parts := by decide +kernel
    have step : (gridPoint 0 (lastBelow (neighbourhoodAt rank) 0 + 1)).point ≤
        (gridPoint 0 (lastBelow (neighbourhoodAt rank) 0)).point + 1 := by
      rw [point_gridPoint, point_gridPoint, Nat.add_mul, Nat.one_mul, Nat.cast_add, add_div]
      have one : (gridWidth 0 : ℚ) / parts ≤ 1 :=
        (div_le_one (Nat.cast_pos.mpr parts_pos)).mpr (Nat.cast_le.mpr narrow)
      linarith
    have above := lt_lastBelow (neighbourhoodAt rank) 0
    have gap : ((neighbourhoodAt rank).low : ℚ) + 1 ≤ (neighbourhoodAt rank).centre := by
      exact_mod_cast lowerBorder_lt pos
    linarith
  · exact (lastBelow_le _ _).trans_lt (Nat.cast_lt.mpr (centre_lt_border rank))

/-- The first grid is wider than the number. -/
theorem lastBelow_firstGrid (x : Binary64) :
    lastBelow (neighbourhoodAt x.rank) x.firstGrid = 0 := by
  have whole : x.units / unitsPerOne < 10 ^ (Nat.toDigits 10 (x.units / unitsPerOne)).length :=
    (Nat.length_toDigits_le_iff (by decide) Nat.length_toDigits_pos).mp (Nat.le_refl _)
  rw [Nat.div_lt_iff_lt_mul unitsPerOne_pos, units_eq] at whole
  refine Nat.div_eq_of_lt ?_
  rw [firstGrid, gridWidth, parts, Nat.pow_eq, Nat.pow_eq, Nat.pow_add, neighbourhoodAt]
  calc 4 * unitsAt x.rank * 10 ^ lowestPower
      < 4 * (10 ^ (Nat.toDigits 10 (unitsAt x.rank / unitsPerOne)).length * unitsPerOne) *
          10 ^ lowestPower :=
        Nat.mul_lt_mul_of_pos_right (Nat.mul_lt_mul_of_pos_left whole (by decide))
          (Nat.pow_pos (by decide))
    _ = _ := by
      rw [units_eq]
      ring

/-- What the search finds. -/
theorem exists_shortest (tie : Tie) (pos : 0 < x.rank) :
    ∃ step digits, step ≤ x.firstGrid ∧ x.shortest tie = gridPoint step digits ∧
      Taken (neighbourhoodAt x.rank) step digits ∧
      ∀ higher, step < higher → higher ≤ x.firstGrid → ∀ others,
        ¬ (neighbourhoodAt x.rank).Contains (gridPoint higher others).point := by
  obtain ⟨step, digits, le, found, eq, nothing⟩ :=
    exists_coarsest x.firstGrid (finest_found tie pos)
  refine ⟨step, digits, le, ?_, taken_of_onGrid? found, fun higher above below others => ?_⟩
  · rw [← eq, ← neighbourhood_eq pos.ne', shortest, firstGrid]
  · exact not_contains_of_grid (centred pos) (nothing higher above below) others

/-- The shortest decimal rounds to the number. -/
theorem shortest_contains (tie : Tie) (pos : 0 < x.rank) :
    (neighbourhoodAt x.rank).Contains (x.shortest tie).point := by
  obtain ⟨step, digits, -, eq, taken, -⟩ := exists_shortest tie pos
  rw [eq]
  exact taken.contains

/-- A decimal lies on the grid of its exponent. -/
theorem gridPoint_eq (least : -(lowestPower : Int) ≤ d.exponent) :
    d = gridPoint (d.exponent + lowestPower).toNat d.digits := by
  obtain ⟨digits, exponent⟩ := d
  simp only [gridPoint, Decimal.mk.injEq, true_and]
  simp only at least
  omega

/-- The multiples of a grid are also multiples of each finer one. -/
theorem point_gridPoint_add (step more digits : Nat) :
    (gridPoint (step + more) digits).point = (gridPoint step (digits * 10 ^ more)).point := by
  rw [point_gridPoint, point_gridPoint, gridWidth, gridWidth, Nat.pow_eq, Nat.pow_eq, Nat.pow_add]
  push_cast
  ring

/-- A decimal on a coarser grid rounds to the number only where one digit is enough. -/
theorem digits_shortest_of_coarser {tie : Tie} (pos : 0 < x.rank)
    (contains : (neighbourhoodAt x.rank).Contains d.point)
    (coarser : (x.shortest tie).exponent < d.exponent) : (x.shortest tie).digits = 1 := by
  obtain ⟨step, digits, le, eq, taken, nothing⟩ := exists_shortest tie pos
  have exponent : (x.shortest tie).exponent = step - lowestPower := by rw [eq, gridPoint]
  have on := gridPoint_eq (d := d) (by omega)
  rw [on] at contains
  have above : step < (d.exponent + lowestPower).toNat := by omega
  generalize (d.exponent + lowestPower).toNat = higher at contains above
  rcases Nat.lt_or_ge x.firstGrid higher with outside | inside
  · obtain ⟨more, rfl⟩ := Nat.exists_eq_add_of_lt outside
    rw [Nat.add_assoc, point_gridPoint_add] at contains
    obtain rfl : step = x.firstGrid := by
      by_contra ne
      exact nothing x.firstGrid (by omega) le_rfl _ contains
    have positive := digits_pos_of_contains pos taken.contains
    have beside := taken.beside
    rw [lastBelow_firstGrid] at beside
    rw [eq]
    simp only [gridPoint] at positive ⊢
    omega
  · exact absurd contains (nothing higher above inside _)

theorem length_of_digits (single : d.digits = 1) : d.digitText.length = 1 := by
  rw [Decimal.digitText, single]
  rfl

/-- No decimal with fewer digits rounds to the number. -/
theorem shortest_fewest (tie : Tie) (pos : 0 < x.rank)
    (contains : (neighbourhoodAt x.rank).Contains d.point) :
    (x.shortest tie).digitText.length ≤ d.digitText.length := by
  by_contra fewer
  have filled := d.length_digitText_pos
  have own := shortest_contains tie pos
  have coarsest {other : Decimal} (also : (neighbourhoodAt x.rank).Contains other.point) :
      other.exponent ≤ (x.shortest tie).exponent := by
    by_contra coarser
    have single := length_of_digits (digits_shortest_of_coarser pos also (Int.not_le.mp coarser))
    omega
  -- A power of ten lies between the two decimals, and it stands on a coarser grid.
  have finer := coarsest contains
  obtain ⟨-, below⟩ := Decimal.value_bounds (digits_pos_of_contains pos contains)
  obtain ⟨above, -⟩ := Decimal.value_bounds (digits_pos_of_contains pos own)
  have leading : d.leadingExponent + 1 ≤ (x.shortest tie).leadingExponent := by
    simp only [Decimal.leadingExponent]
    omega
  have between : (10 : ℚ) ^ (d.leadingExponent + 1) ≤ 10 ^ (x.shortest tie).leadingExponent :=
    zpow_le_zpow_right₀ (by norm_num) leading
  have power : (neighbourhoodAt x.rank).Contains
      (Decimal.mk 1 (x.shortest tie).leadingExponent).point := contains.between own
    (Decimal.point_le_point.mpr (by rw [Decimal.value_power]; exact below.le.trans between))
    (Decimal.point_le_point.mpr (by rw [Decimal.value_power]; exact above))
  have coarser := coarsest power
  simp only [Decimal.leadingExponent] at coarser
  omega

/-- The magnitude of a finite number. -/
def magnitude (x : Binary64) : ℚ := x.units / unitsPerOne

/-- Points are as far apart as the values are, at the scale of the points. -/
theorem distance_value (x : Binary64) (d : Decimal) :
    |d.point - (neighbourhoodAt x.rank).centre| = 4 * unitsPerOne * |d.value - x.magnitude| := by
  have units : ((neighbourhoodAt x.rank).centre : ℚ) = 4 * unitsPerOne * x.magnitude := by
    have nonzero : (unitsPerOne : ℚ) ≠ 0 := Nat.cast_ne_zero.mpr unitsPerOne_pos.ne'
    rw [magnitude, mul_assoc, mul_div_cancel₀ _ nonzero, units_eq]
    simp only [neighbourhoodAt, Nat.cast_mul, Nat.cast_ofNat]
  rw [Decimal.point, units, ← mul_sub, abs_mul, abs_of_pos Decimal.point_pos_scale]

/-- No other multiple of the same power of ten that rounds to the number is nearer to it. -/
theorem shortest_closest {tie : Tie} (pos : 0 < x.rank) {digits : Nat}
    (contains : (neighbourhoodAt x.rank).Contains
      (Decimal.mk digits (x.shortest tie).exponent).point) :
    |(x.shortest tie).value - x.magnitude| ≤
      |(Decimal.mk digits (x.shortest tie).exponent).value - x.magnitude| := by
  obtain ⟨step, own, -, eq, taken, -⟩ := exists_shortest tie pos
  have same : Decimal.mk digits (x.shortest tie).exponent = gridPoint step digits := by
    rw [eq, gridPoint, gridPoint]
  rw [same] at contains ⊢
  have nearest := taken.nearest (centred pos) contains
  rw [distance_value, distance_value] at nearest
  rw [eq]
  exact le_of_mul_le_mul_left nearest Decimal.point_pos_scale

end

end Binary64

end Imprint
