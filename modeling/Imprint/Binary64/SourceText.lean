/-
Module: Imprint.Binary64.SourceText
Purpose: Numbers as program text writes them: the shortest digits, written out from a millionth up to,
  but not including, 10²¹, and with a signed exponent beyond; both zeros are `0`.
Main exports: Binary64.sourceText
-/
import Imprint.Binary64.Decimal

namespace Imprint.Binary64

/-- The least magnitude that is written out. -/
def leastWrittenOut : Binary64 := ofRatio false 1 (Nat.pow 10 6)

/-- The least magnitude that is too large to be written out. -/
def leastTooLarge : Binary64 := ofNat (Nat.pow 10 21)

/-- A number as program text writes it. -/
def sourceText (x : Binary64) : String :=
  if x.isNaN then "NaN"
  else if !x.isFinite then
    if x.negative then "-Infinity" else "Infinity"
  else if x.isZero then "0"
  else
    let decimal := x.shortest .up
    let magnitude :=
      if leastWrittenOut.rank ≤ x.rank ∧ x.rank < leastTooLarge.rank then decimal.positional
      else decimal.scientific
    if x.negative then "-" ++ magnitude else magnitude

end Imprint.Binary64
