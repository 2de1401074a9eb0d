import AccessCache.Json.Text

/-!
# Numbers

A numeral is read as its digits first and given a value afterwards. Whole numbers of 64 bits stay
exact; all others become doubles by scaling the digits that fit 64 bits with a power of ten, and a
numeral too large for that is no document. An exponent counts up to 32 bits and no further: a
number with a larger one is zero or too large in any case.
-/

namespace AccessCache.Json

inductive Number where
  | integer (i : Int)
  | float (x : Float)

def Number.found : Number → Found
  | integer i => .integer i
  | float x => .float x

/-- A numeral as written. `fraction` is empty where there is no point. -/
structure Numeral where
  negative : Bool
  whole : List Nat
  fraction : List Nat
  exponent : Option Int
  /-- How many digits of the exponent are left when it leaves 32 bits. -/
  surplus : Nat
  deriving DecidableEq

namespace Numeral

open Reader (fail refuse isDigit)

/-! ## Reading -/

def digitValue (b : UInt8) : Nat := b.toNat - '0'.toNat

/-- The digits at the front, and what follows them. -/
def digits (bs : Bytes) : List Nat × Bytes :=
  ((bs.takeWhile isDigit).map digitValue, bs.dropWhile isDigit)

/-- At least one digit; `atEnd` is what the document lacks where it ends instead. -/
def someDigits (atEnd : Obstacle) : Reader (List Nat) := fun bs =>
  match digits bs with
  | ([], []) => fail atEnd bs
  | ([], _ :: _) => refuse .badNumber bs
  | r => .ok r

/-- The digits before the point: no zero stands in front of others. -/
def wholePart (atEnd : Obstacle) : Reader (List Nat) := fun bs => do
  match ← someDigits atEnd bs with
  | (0 :: _ :: _, _) => refuse .badNumber bs.tail
  | r => .ok r

/-- Takes a byte if it comes next. -/
def takeIf (b : UInt8) : Reader Bool := fun bs =>
  if bs.head? = some b then .ok (true, bs.tail) else .ok (false, bs)

def fractionPart (atEnd : Obstacle) : Reader (List Nat) := do
  if ← takeIf '.' then someDigits atEnd else pure []

/-- Appends digits to `n` while it is below `limit`, and gives the digits left over. -/
def countTo (limit : Nat) : Nat → List Nat → Nat × List Nat
  | n, [] => (n, [])
  | n, d :: ds => if n < limit then countTo limit (n * 10 + d) ds else (n, d :: ds)

/-- The exponents of 32 bits end here. -/
def exponentLimit : Nat := 2147483648

def sign : Reader Bool := takeIf '-'

/-- A sign that may also be a plus. -/
def exponentSign : Reader Bool := do
  if ← takeIf '+' then pure false else sign

/-- The letter that an exponent begins with. -/
def exponentMark : Reader Bool := do
  if ← takeIf 'e' then pure true else takeIf 'E'

/-- The exponent, and how many of its digits do not count. -/
def exponentPart (atEnd : Obstacle) : Reader (Option Int × Nat) := do
  if ← exponentMark then
    let negative ← exponentSign
    let (n, left) := countTo exponentLimit 0 (← someDigits atEnd)
    pure (some (if negative then -(n : Int) else n), left.length)
  else pure (none, 0)

/-- Reads a numeral that starts at once. -/
def read (atEnd : Obstacle) : Reader Numeral := do
  let negative ← sign
  let whole ← wholePart atEnd
  let fraction ← fractionPart atEnd
  let (exponent, surplus) ← exponentPart atEnd
  pure ⟨negative, whole, fraction, exponent, surplus⟩

/-! ## Value -/

/-- Appends digits to `n` while the result fits 64 bits, and gives the digits left over. -/
def gather : Nat → List Nat → Nat × List Nat
  | n, [] => (n, [])
  | n, d :: ds => if n * 10 + d < UInt64.size then gather (n * 10 + d) ds else (n, d :: ds)

/-- The powers of ten that a double holds end at this exponent. -/
def maxPower : Nat := 308

def power (e : Nat) : Float := Float.ofScientific 1 false e

/-- `x * 10 ^ e`, unless that is infinite. -/
def scaleUp? (x : Float) (e : Nat) : Option Float :=
  if e ≤ maxPower then
    let y := x * power e
    if y.isInf then none else some y
  else if x == 0 then some x
  else none

/-- `x / 10 ^ e`, in steps that a double can divide by. -/
def scaleDown (x : Float) (e : Nat) : Float :=
  if e ≤ maxPower then x / power e
  else if x == 0 then x
  else scaleDown (x / power maxPower) (e - maxPower)
  termination_by e
  decreasing_by simp_all [maxPower]; omega

/-- `n * 10 ^ e`, unless that is infinite. -/
def scale? (n : Nat) (e : Int) : Option Float :=
  let x := (UInt64.ofNat n).toFloat
  if 0 ≤ e then scaleUp? x e.toNat else some (scaleDown x (-e).toNat)

/-- The value of a numeral that is not too large. A negative zero and whole numbers outside 64 bits
are doubles. -/
def value? (t : Numeral) : Option Number :=
  let (n, left) := gather 0 t.whole
  if left = [] ∧ t.fraction = [] ∧ t.exponent = none then
    if !t.negative then some (.integer n)
    else if 0 < n ∧ n ≤ 9223372036854775808 then some (.integer (-(n : Int)))
    else some (.float (-(UInt64.ofNat n).toFloat))
  else do
    let (m, cut) := gather n t.fraction
    let shift : Int := left.length - (t.fraction.length - cut.length : Nat)
    let x ← scale? m (shift + t.exponent.getD 0)
    pure (.float (if t.negative then -x else x))

end Numeral

/-- Reads a number that starts at once. -/
def Reader.number : Reader Number := do
  let t ← Numeral.read (.truncated .value)
  match t.value? with
  | some n => pure n
  | none => fun bs => .error ⟨.malformed .outOfRange, bs.length + t.surplus⟩

end AccessCache.Json
