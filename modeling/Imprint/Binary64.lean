/-
Module: Imprint.Binary64
Purpose: 64-bit binary floating point numbers as exact data. A number is a sign and a rank; the rank
  counts the magnitudes from zero upwards, so comparing ranks compares magnitudes. Every finite
  magnitude is a whole number of units of 2⁻¹⁰⁷⁴, and arithmetic is exact arithmetic on units
  followed by one rounding to nearest, ties to even.
Main exports: Binary64, Binary64.units, Binary64.ofRatio, Binary64.ofInt, Binary64.toInt?,
  Binary64.mul, Binary64.div, Binary64.ofBits, Binary64.toBits
-/

namespace Imprint

/-- A 64-bit binary floating point number: its sign and the rank of its magnitude. Ranks below
`infinityRank` are finite, that rank is infinity, and the ranks above it are not numbers. -/
structure Binary64 where
  negative : Bool
  rank : Nat
  rank_lt : rank < Nat.pow 2 63
deriving DecidableEq, Repr

namespace Binary64

/-- The rank of infinity: all eleven exponent bits set and an empty fraction. -/
def infinityRank : Nat := 2047 * Nat.pow 2 52

/-- The magnitude of a given rank, clipped to infinity. -/
def ofRank (negative : Bool) (rank : Nat) : Binary64 :=
  if h : rank < infinityRank then
    ⟨negative, rank, Nat.lt_trans h (by decide)⟩
  else
    ⟨negative, infinityRank, by decide⟩

/-- Positive zero. -/
def zero : Binary64 := ⟨false, 0, by decide⟩

/-- A finite number: neither an infinity nor a not-a-number. -/
def isFinite (x : Binary64) : Bool := x.rank < infinityRank

/-- Not a number. -/
def isNaN (x : Binary64) : Bool := infinityRank < x.rank

/-- Either of the two zeros. -/
def isZero (x : Binary64) : Bool := x.rank == 0

/-- The opposite number; on zeros and on numbers that are none it only turns the sign. -/
def neg (x : Binary64) : Binary64 := { x with negative := !x.negative }

/-! ### The exact magnitude -/

/-- The integer significand of a finite magnitude, below 2⁵³. -/
def significand (x : Binary64) : Nat :=
  if x.rank < Nat.pow 2 52 then x.rank else Nat.pow 2 52 + x.rank % Nat.pow 2 52

/-- The power of two, in units, by which the significand counts. -/
def scale (x : Binary64) : Nat := x.rank / Nat.pow 2 52 - 1

/-- How many units make one. -/
def unitsPerOne : Nat := Nat.pow 2 1074

/-- A finite magnitude as a whole number of units of 2⁻¹⁰⁷⁴. -/
def units (x : Binary64) : Nat := x.significand * Nat.pow 2 x.scale

/-! ### Rounding -/

/-- The integer nearest to `num / den`; a half goes to the even neighbour. -/
def nearestEven (num den : Nat) : Nat :=
  let quotient := num / den
  let remainder := num % den
  if 2 * remainder < den then quotient
  else if den < 2 * remainder then quotient + 1
  else quotient + quotient % 2

/-- The rank nearest to the magnitude `num / den`, not yet clipped to infinity. A significand that
rounds up to the next power of two carries into the exponent, which is again the right rank. -/
def nearestRank (num den : Nat) : Nat :=
  let scaled := num * unitsPerOne
  let scale := (scaled / den).log2 - 52
  scale * Nat.pow 2 52 + nearestEven scaled (den * Nat.pow 2 scale)

/-- The number nearest to `± num / den`, ties to even, infinity beyond the largest finite one. -/
def ofRatio (negative : Bool) (num den : Nat) : Binary64 :=
  ofRank negative (nearestRank num den)

/-- The number nearest to a natural number. -/
def ofNat (n : Nat) : Binary64 := ofRatio false n 1

/-- The number nearest to an integer. -/
def ofInt (i : Int) : Binary64 := ofRatio (i < 0) i.natAbs 1

/-- The integer part of a finite number, cut towards zero. -/
def toInt? (x : Binary64) : Option Int :=
  if x.isFinite then
    let whole : Int := ((x.units / unitsPerOne : Nat) : Int)
    some (if x.negative then -whole else whole)
  else
    none

/-- The product of two finite numbers, rounded once. -/
def mul (x y : Binary64) : Binary64 :=
  ofRatio (x.negative != y.negative) (x.units * y.units) (unitsPerOne * unitsPerOne)

/-- The quotient of two finite numbers, the second not zero, rounded once. -/
def div (x y : Binary64) : Binary64 :=
  ofRatio (x.negative != y.negative) x.units y.units

/-- Ten to the given power, rounded once. -/
def powerOfTen (exponent : Nat) : Binary64 := ofNat (Nat.pow 10 exponent)

/-! ### Interchange words -/

/-- The number a 64-bit interchange word stands for: the sign is the top bit and the rank is the
rest. -/
def ofBits (bits : UInt64) : Binary64 :=
  ⟨Nat.pow 2 63 ≤ bits.toNat, bits.toNat % Nat.pow 2 63, Nat.mod_lt _ (by decide)⟩

/-- The interchange word of a number. -/
def toBits (x : Binary64) : UInt64 :=
  UInt64.ofNat ((if x.negative then Nat.pow 2 63 else 0) + x.rank)

end Binary64

end Imprint
