/-!
# Ranges of characters

A property of characters is a list of closed ranges of their numbers.
-/

namespace DeviceAttest

/-- Closed ranges of character numbers. -/
abbrev CharRanges := List (Nat × Nat)

/-- Whether a character lies in one of the ranges. -/
def CharRanges.contains (ranges : CharRanges) (c : Char) : Bool :=
  ranges.any fun range => range.1 ≤ c.toNat && c.toNat ≤ range.2

end DeviceAttest
