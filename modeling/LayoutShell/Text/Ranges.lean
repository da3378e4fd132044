/-!
# Ranges of characters

Character properties are given as lists of closed ranges of code points in increasing order.
-/

namespace LayoutShell.Text

/-- Closed ranges of code points. -/
abbrev Ranges := List (Nat × Nat)

/-- The code point of `c` lies in one of the ranges. -/
def Ranges.contains (ranges : Ranges) (c : Char) : Bool :=
  ranges.any fun r => r.1 ≤ c.toNat && c.toNat ≤ r.2

end LayoutShell.Text
