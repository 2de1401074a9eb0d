/-!
# Durations

A length of time in whole seconds and nanoseconds. Its text uses the largest unit in which it is
at least one, with no trailing zeros after the point.
-/

namespace AccessCache

/-- A length of time; the seconds fit 64 bits and the nanoseconds make less than a second. -/
structure Duration where
  secs : Nat
  nanos : Nat
  secs_lt : secs < UInt64.size := by decide
  nanos_lt : nanos < 1000000000 := by decide
  deriving DecidableEq

namespace Duration

/-- The whole length in nanoseconds. -/
def nanoseconds (d : Duration) : Nat := d.secs * 1000000000 + d.nanos

theorem nanoseconds_inj {d e : Duration} (h : d.nanoseconds = e.nanoseconds) : d = e := by
  obtain ⟨s, n, hs, hn⟩ := d
  obtain ⟨t, m, ht, hm⟩ := e
  simp only [nanoseconds] at h
  obtain rfl : s = t := by omega
  obtain rfl : n = m := by omega
  rfl

/-- Whole milliseconds, rounded down. -/
def milliseconds (d : Duration) : Nat := d.nanoseconds / 1000000

/-- A duration of `s` seconds and `n` nanoseconds, carrying into the seconds; nothing when they
leave 64 bits. -/
def ofParts? (s n : Nat) : Option Duration :=
  if h : s + n / 1000000000 < UInt64.size then
    some ⟨s + n / 1000000000, n % 1000000000, h, Nat.mod_lt _ (by decide)⟩
  else none

/-- A whole number of milliseconds that fits 64 bits. -/
def ofMilliseconds (n : UInt64) : Duration where
  secs := n.toNat / 1000
  nanos := n.toNat % 1000 * 1000000
  secs_lt := Nat.lt_of_le_of_lt (Nat.div_le_self _ _) n.toNat_lt
  nanos_lt := by have := Nat.mod_lt n.toNat (show 0 < 1000 by decide); omega

def isZero (d : Duration) : Bool := d.secs = 0 && d.nanos = 0

/-! ## Text -/

/-- The digits of `part`, a fraction of `10 ^ width`, less the trailing zeros. -/
def fractionDigits (part width : Nat) : List Char :=
  let digits := Nat.toDigits 10 part
  let padded := List.replicate (width - digits.length) '0' ++ digits
  (padded.reverse.dropWhile (· = '0')).reverse

/-- A number with its decimals and a unit. -/
def decimal (whole part width : Nat) (unit : String) : String :=
  match fractionDigits part width with
  | [] => toString whole ++ unit
  | ds => toString whole ++ "." ++ String.ofList ds ++ unit

/-- The text of a duration, such as `1.5ms`. -/
def text (d : Duration) : String :=
  if 0 < d.secs then decimal d.secs d.nanos 9 "s"
  else if 1000000 ≤ d.nanos then decimal (d.nanos / 1000000) (d.nanos % 1000000) 6 "ms"
  else if 1000 ≤ d.nanos then decimal (d.nanos / 1000) (d.nanos % 1000) 3 "µs"
  else decimal d.nanos 0 0 "ns"

end Duration

end AccessCache
