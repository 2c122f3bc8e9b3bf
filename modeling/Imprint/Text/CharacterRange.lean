/-
Module: Imprint.Text.CharacterRange
Purpose: Character classes given as sorted lists of closed code point ranges.
Main exports: CharacterRange, CharacterRange.covers
-/

namespace Imprint.Text

/-- A closed range of code points, first and last. -/
abbrev CharacterRange := Nat × Nat

/-- A character lies in one of the ranges. -/
def CharacterRange.covers (ranges : List CharacterRange) (c : Char) : Bool :=
  ranges.any fun (first, last) => first ≤ c.toNat && c.toNat ≤ last

end Imprint.Text
