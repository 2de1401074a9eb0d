/-!
# Ranges of characters

A class of characters as closed ranges of code points.
-/

namespace AccessCache.Text

/-- The first and the last code point of each range. -/
abbrev Ranges := List (Nat × Nat)

def Ranges.has (rs : Ranges) (c : Char) : Bool := rs.any fun r => r.1 ≤ c.toNat && c.toNat ≤ r.2

end AccessCache.Text
