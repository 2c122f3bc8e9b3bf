/-
Module: Imprint.Binary64.Decimal
Purpose: The shortest decimal that reads back as a given number, and the two layouts of a decimal.
  Of all decimals that round to the number, the one on the coarsest power-of-ten grid is taken; of
  several on that grid the nearest, and an exact tie is settled by the caller.
Main exports: Decimal, Decimal.positional, Decimal.scientific, Tie, Binary64.shortest
-/
import Imprint.Binary64

namespace Imprint

/-! ### Decimals and their layouts -/

/-- A positive decimal: `digits · 10 ^ exponent`. -/
structure Decimal where
  digits : Nat
  exponent : Int
deriving DecidableEq, Repr

namespace Decimal

/-- The digits as text, with no leading zero. -/
def digitText (d : Decimal) : List Char := Nat.toDigits 10 d.digits

/-- The power of ten of the first digit. -/
def leadingExponent (d : Decimal) : Int := d.exponent + d.digitText.length - 1

/-- The decimal written out without an exponent, and without a point when it is whole. -/
def positional (d : Decimal) : String :=
  match d.exponent with
  | .ofNat zeros => String.ofList (d.digitText ++ List.replicate zeros '0')
  | .negSucc places =>
      let fraction := places + 1
      let padded := List.replicate (fraction + 1 - d.digitText.length) '0' ++ d.digitText
      let whole := padded.length - fraction
      String.ofList (padded.take whole) ++ "." ++ String.ofList (padded.drop whole)

/-- An exponent with its sign always written. -/
def exponentText : Int → String
  | .ofNat n => "e+" ++ String.ofList (Nat.toDigits 10 n)
  | .negSucc n => "e-" ++ String.ofList (Nat.toDigits 10 (n + 1))

/-- One digit, the further digits after a point, and the exponent of the first digit. -/
def scientific (d : Decimal) : String :=
  let mantissa :=
    match d.digitText with
    | [] => ""
    | [digit] => String.ofList [digit]
    | digit :: more => String.ofList (digit :: '.' :: more)
  mantissa ++ exponentText d.leadingExponent

end Decimal

/-! ### The shortest decimal -/

/-- Which of two equally near decimals is taken. -/
inductive Tie where
  | up
  | toEven
deriving DecidableEq, Repr

namespace Binary64

/-- The reals that round to a number, in quarter units: the ends belong to it exactly when the
significand is even, and the lower gap is half as wide just above a power of two. -/
structure Neighbourhood where
  low : Nat
  centre : Nat
  high : Nat
  closed : Bool

/-- The neighbourhood of a finite number that is not zero. -/
def neighbourhood (x : Binary64) : Neighbourhood :=
  let gap := Nat.pow 2 x.scale
  let narrow := x.significand == Nat.pow 2 52 && 0 < x.scale
  { low := 4 * x.units - (if narrow then gap else 2 * gap)
    centre := 4 * x.units
    high := 4 * x.units + 2 * gap
    closed := x.significand % 2 == 0 }

/-- Membership of a point given in quarter units times `factor`. -/
def Neighbourhood.holds (n : Neighbourhood) (factor point : Nat) : Bool :=
  if n.closed then n.low * factor ≤ point && point ≤ n.high * factor
  else n.low * factor < point && point < n.high * factor

/-- The lowest power of ten that a decimal of a finite number can need. -/
def lowestPower : Nat := 324

/-- The better of the two grid points around the centre among those inside the neighbourhood. The
grid is the multiples of ten to the power `step - lowestPower`. -/
def onGrid? (tie : Tie) (n : Neighbourhood) (step : Nat) : Option Nat :=
  let factor := Nat.pow 10 lowestPower
  let grid := Nat.pow 10 step * (4 * unitsPerOne)
  let centre := n.centre * factor
  let below := centre / grid
  let above := below + 1
  match n.holds factor (below * grid), n.holds factor (above * grid) with
  | false, false => none
  | true, false => some below
  | false, true => some above
  | true, true =>
      let toBelow := centre - below * grid
      let toAbove := above * grid - centre
      if toBelow < toAbove then some below
      else if toAbove < toBelow then some above
      else
        match tie with
        | .up => some above
        | .toEven => some (if below % 2 == 0 then below else above)

/-- The coarsest grid, from the given one downwards, with a point in the neighbourhood. -/
def coarsest (tie : Tie) (n : Neighbourhood) : Nat → Decimal
  | 0 => ⟨(onGrid? tie n 0).getD 0, -lowestPower⟩
  | step + 1 =>
      match onGrid? tie n (step + 1) with
      | some digits => ⟨digits, (step + 1 : Nat) - lowestPower⟩
      | none => coarsest tie n step

/-- The shortest decimal that rounds to the magnitude of a finite number other than zero. The search
starts at the first power of ten above the integer part. -/
def shortest (tie : Tie) (x : Binary64) : Decimal :=
  let wholeDigits := (Nat.toDigits 10 (x.units / unitsPerOne)).length
  coarsest tie x.neighbourhood (lowestPower + wholeDigits)

end Binary64

end Imprint
