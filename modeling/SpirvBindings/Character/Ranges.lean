/-!
Sets of characters, given by ranges of their numbers. -/

namespace SpirvBindings.Character

/-- Ranges with both of their ends, ascending and apart from each other. -/
abbrev Ranges := List (Nat × Nat)

/-- Whether a character is in one of the ranges that start at or below it. -/
def Ranges.contains (rs : Ranges) (c : Char) : Bool :=
  (rs.takeWhile fun (low, _) => low ≤ c.toNat).any fun (_, high) => c.toNat ≤ high

end SpirvBindings.Character
