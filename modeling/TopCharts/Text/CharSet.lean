/-!
# Sets of characters

A set of code points is given by its boundaries: the ascending list of the code points at which
membership changes, beginning outside. `[0x41, 0x5b]` holds `A` to `Z`.
-/

namespace TopCharts.Text

/-- A set of characters by its boundaries. -/
structure CharSet where
  boundaries : List Nat

/-- A character belongs to the set if an odd number of boundaries lie at or below it. -/
def CharSet.contains (s : CharSet) (c : Char) : Bool :=
  (s.boundaries.takeWhile (· ≤ c.toNat)).length % 2 = 1

end TopCharts.Text
