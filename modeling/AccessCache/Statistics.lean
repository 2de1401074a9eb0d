/-!
# Statistics

How often lookups were answered by a cache, and how many entries it holds.
-/

namespace AccessCache

@[ext]
structure Statistics where
  hits : Nat
  misses : Nat
  entries : Nat
  deriving DecidableEq

/-- The share of lookups that were hits, and zero where there were none. -/
def Statistics.hitRate (s : Statistics) : Float :=
  if s.hits + s.misses = 0 then 0
  else (UInt64.ofNat s.hits).toFloat / (UInt64.ofNat (s.hits + s.misses)).toFloat

/-- The counters of a cache. -/
structure Counters where
  hits : Nat := 0
  misses : Nat := 0
  deriving DecidableEq

namespace Counters

/-- Counts a lookup. -/
def record (c : Counters) (hit : Bool) : Counters :=
  if hit then { c with hits := c.hits + 1 } else { c with misses := c.misses + 1 }

def statistics (c : Counters) (entries : Nat) : Statistics := ⟨c.hits, c.misses, entries⟩

end Counters

end AccessCache
