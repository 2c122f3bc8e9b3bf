/-
Module: Imprint.Substitution.Report
Purpose: How many nodes were replaced, in all and for each name, with the names in order.
Main exports: Report, Report.ofNames, Report.count
-/

namespace Imprint

/-- The replacements in a tree: their number, and the number for each name, sorted by name. -/
structure Report where
  replaced : Nat
  byName : List (String × Nat)
deriving DecidableEq, Repr

namespace Report

/-- One more replacement for a name. -/
def tally (name : String) : List (String × Nat) → List (String × Nat)
  | [] => [(name, 1)]
  | (other, count) :: rest =>
      if name = other then (other, count + 1) :: rest
      else if name < other then (name, 1) :: (other, count) :: rest
      else (other, count) :: tally name rest

/-- The report of the names that were replaced. -/
def ofNames (names : List String) : Report :=
  ⟨names.length, names.foldl (fun counts name => tally name counts) []⟩

/-- The number of replacements for a name. -/
def count (report : Report) (name : String) : Nat := (report.byName.lookup name).getD 0

end Report

end Imprint
