/-!
# Ranges of characters

A property of characters is kept as the ranges of the code points that have it, in ascending order.
-/

namespace Rv64Board.Text

/-- A character lies in one of the ranges; both ends of a range belong to it. The search ends at the
first range that starts behind the character. -/
def inRanges : List (Nat × Nat) → Char → Bool
  | [], _ => false
  | (low, high) :: rest, c => low ≤ c.toNat && (c.toNat ≤ high || inRanges rest c)

end Rv64Board.Text
