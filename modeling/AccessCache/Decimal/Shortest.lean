/-!
# Shortest decimals

The text of a double-precision number: the fewest decimal digits that read back as the number,
and of those the nearest to it. A positive double is `m * 2 ^ q`; the reals that round to it form
an interval whose ends belong to it when `m` is even. For 1, 2, … 17 digits the two neighbours of
the number on that decimal grid are tested, in whole numbers, and the first grid with a hit wins.
-/

namespace AccessCache.Decimal

/-! ## Digits -/

/-- A positive double as `m * 2 ^ q`; `wide` when the number below it is only half as far as the
number above. -/
structure Binary where
  m : Nat
  q : Int
  wide : Bool

def Binary.ofBits (bits : UInt64) : Binary :=
  let e := (bits >>> 52).toNat % 2048
  let f := bits.toNat % 4503599627370496
  if e = 0 then ⟨f, -1074, false⟩ else ⟨f + 4503599627370496, e - 1075, f = 0 && 1 < e⟩

namespace Binary

variable (b : Binary)

/-- A quarter of the distance to the next number has this exponent of two. -/
def quarter : Int := b.q - 2

/-- `a` quarters and `k` steps of `10 ^ t` compare as `a * up t` and `k * down t`. -/
def up (t : Int) : Nat := Nat.pow 2 b.quarter.toNat * Nat.pow 10 (-t).toNat
def down (t : Int) : Nat := Nat.pow 10 t.toNat * Nat.pow 2 (-b.quarter).toNat

/-- The ends of the interval, in quarters. -/
def low : Nat := if b.wide then 4 * b.m - 1 else 4 * b.m - 2
def high : Nat := 4 * b.m + 2

/-- Whether `k * 10 ^ t` reads back as the number. -/
def hits (t : Int) (k : Nat) : Bool :=
  if b.m % 2 = 0 then b.low * b.up t ≤ k * b.down t && k * b.down t ≤ b.high * b.up t
  else b.low * b.up t < k * b.down t && k * b.down t < b.high * b.up t

/-- The neighbour of the number on the grid of `10 ^ t` that reads back, the nearer of two. -/
def neighbour? (t : Int) : Option Nat :=
  let k := 4 * b.m * b.up t / b.down t
  let below := 4 * b.m * b.up t - k * b.down t
  let above := (k + 1) * b.down t - 4 * b.m * b.up t
  match b.hits t k, b.hits t (k + 1) with
  | true, true => some (if below < above || (below = above && k % 2 = 0) then k else k + 1)
  | true, false => some k
  | false, true => some (k + 1)
  | false, false => none

/-- The exponent of the first digit. -/
def magnitude : Int :=
  let num := b.m * Nat.pow 2 b.q.toNat
  let den := Nat.pow 2 (-b.q).toNat
  let e : Int := (Nat.toDigits 10 num).length - (Nat.toDigits 10 den).length
  if den * Nat.pow 10 e.toNat ≤ num * Nat.pow 10 (-e).toNat then e else e - 1

/-- The first grid with a hit among `n` from `t` down, and the number cut off at the grid below
where there is none; 17 digits always suffice. -/
def search : Nat → Int → Nat × Int
  | 0, t => (4 * b.m * b.up t / b.down t, t)
  | n + 1, t => match b.neighbour? t with
    | some k => (k, t)
    | none => search n (t - 1)

/-- The digits and the exponent of the last one. -/
def shortest : Nat × Int := b.search 17 b.magnitude

end Binary

/-! ## Layout -/

/-- Where numbers change from positional to scientific layout: the point may stand up to `high`
places after the first digit and up to `low` places before it. -/
structure Layout where
  low : Nat
  high : Nat

/-- Positional from `0.00001` up to below `10 ^ 16`. -/
def standard : Layout := ⟨5, 16⟩

/-- An exponent with its sign. -/
def exponentText (e : Int) : List Char := (if 0 ≤ e then ['+'] else []) ++ (toString e).toList

/-- Writes the digits `ds`, the last of which counts `10 ^ t`. -/
def Layout.write (l : Layout) (ds : List Char) (t : Int) : List Char :=
  let point : Int := ds.length + t
  if 0 ≤ t ∧ point ≤ l.high then ds ++ List.replicate t.toNat '0' ++ ['.', '0']
  else if 0 < point ∧ point ≤ l.high then ds.take point.toNat ++ '.' :: ds.drop point.toNat
  else if -l.low < point ∧ point ≤ 0 then ['0', '.'] ++ List.replicate (-point).toNat '0' ++ ds
  else
    let mantissa := match ds with
      | [] => []
      | [d] => [d]
      | d :: rest => d :: '.' :: rest
    mantissa ++ 'e' :: exponentText (point - 1)

/-- Drops the zeros at the end of a digit string, counting them into the exponent. -/
def strip (ds : List Char) (t : Int) : List Char × Int :=
  let kept := (ds.reverse.dropWhile (· = '0')).reverse
  (kept, t + (ds.length - kept.length : Nat))

/-- The text of a finite double, with a point or an exponent in every case. -/
def text (x : Float) : String :=
  let bits := x.toBits
  let sign := if 9223372036854775808 ≤ bits.toNat then ['-'] else []
  let b := Binary.ofBits bits
  if b.m = 0 then String.ofList (sign ++ ['0', '.', '0'])
  else
    let (k, t) := b.shortest
    let (ds, t) := strip (Nat.toDigits 10 k) t
    String.ofList (sign ++ standard.write ds t)

end AccessCache.Decimal
