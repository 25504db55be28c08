/-!
# Sets of characters given by ranges

A character class is a list of closed ranges of code points.  The tables of the
library are sorted and disjoint, but membership needs neither.
-/

namespace EntryPoints.Text

abbrev Ranges := List (Nat × Nat)

def Ranges.has (ranges : Ranges) (c : Char) : Bool :=
  ranges.any fun r => r.1 ≤ c.toNat && c.toNat ≤ r.2

end EntryPoints.Text
