/-!
# `RegisterMachine.Text.Ranges` — sets of characters given as ranges of code points

The tables of Unicode properties are lists of ranges, both ends included.
Membership reads the list from the left; a table is small enough that nothing
faster is needed, and the plain reading is what a proof unfolds.
-/

namespace RegisterMachine.Text

/-- Whether a character lies in one of the ranges -/
def inRanges (ranges : List (Nat × Nat)) (c : Char) : Bool :=
  ranges.any fun (first, last) => decide (first ≤ c.toNat) && decide (c.toNat ≤ last)

end RegisterMachine.Text
