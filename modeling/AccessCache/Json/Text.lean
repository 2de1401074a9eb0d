import AccessCache.Json.Reader

/-!
# Texts

Reading the inside of a text, whose opening quote has been read, up to and with its closing quote.
A code point beyond 16 bits may be escaped as two units; a unit of such a pair that stands alone
is refused. Bytes that are no escapes are taken as they come, and a text that is kept has to be
UTF-8 in the end.
-/

namespace AccessCache.Json.Reader

/-- Takes the next byte of a text. -/
def next : Reader UInt8 := fun bs =>
  match bs with
  | [] => breakOff .text bs
  | b :: rest => .ok (b, rest)

/-! ## Escapes -/

def isDigit (b : UInt8) : Bool := '0' ≤ b && b ≤ '9'

/-- The value of a digit in base 16. -/
def hexValue? (b : UInt8) : Option Nat :=
  if isDigit b then some (b.toNat - '0'.toNat)
  else if 'a' ≤ b && b ≤ 'f' then some (b.toNat - 'a'.toNat + 10)
  else if 'A' ≤ b && b ≤ 'F' then some (b.toNat - 'A'.toNat + 10)
  else none

/-- The number that four digits in base 16 write. -/
def unitOf? (a b c d : UInt8) : Option Nat := do
  pure ((((← hexValue? a) * 16 + (← hexValue? b)) * 16 + (← hexValue? c)) * 16 + (← hexValue? d))

/-- Four digits in base 16. Less than four bytes are the end of the document, and others are
refused all four at once. -/
def unit : Reader Nat := fun bs =>
  match bs with
  | a :: b :: c :: d :: rest => match unitOf? a b c d with
    | some n => .ok (n, rest)
    | none => fail (.malformed .badEscape) rest
  | _ => breakOff .text bs

def isLeading (n : Nat) : Bool := 0xd800 ≤ n && n ≤ 0xdbff
def isTrailing (n : Nat) : Bool := 0xdc00 ≤ n && n ≤ 0xdfff

/-- The code point of a leading and a trailing unit. -/
def pairValue (n m : Nat) : Nat := (n - 0xd800) * 0x400 + (m - 0xdc00) + 0x10000

/-- The escape of a unit that has to follow a leading one. -/
def secondUnit : Reader Nat := do
  if (← next) = '\\' then
    if (← next) = 'u' then unit else fail (.malformed .brokenPair)
  else fail (.malformed .brokenPair)

/-- The character of one unit, or of two where the first is a leading one. -/
def codePoint : Reader Char := do
  let n ← unit
  if isTrailing n then fail (.malformed .loneUnit)
  else if isLeading n then
    let m ← secondUnit
    if isTrailing m then pure (Char.ofNat (pairValue n m)) else fail (.malformed .loneUnit)
  else pure (Char.ofNat n)

/-- The letters that may follow a backslash, and the character that each stands for. -/
def letters : List (UInt8 × Char) :=
  [('"', '"'), ('\\', '\\'), ('/', '/'), ('b', '\x08'), ('f', '\x0c'), ('n', '\n'), ('r', '\r'),
   ('t', '\t')]

/-- What follows a backslash. -/
def escape : Reader Char := do
  let b ← next
  if b = 'u' then codePoint
  else match letters.lookup b with
    | some c => pure c
    | none => fail (.malformed .badEscape)

/-! ## Keeping -/

/-- The bytes up to the closing quote, after those of `done` in reverse. Escapes give the bytes of
their characters. -/
def characters : Bytes → Bytes → Reader Bytes
  | [], _ => breakOff .text
  | _ :: bound, done => do
    let b ← next
    if b = '"' then pure done.reverse
    else if b = '\\' then
      let c ← escape
      characters bound ((String.utf8EncodeChar c).reverse ++ done)
    else if b < ' ' then fail (.malformed .controlCharacter)
    else characters bound (b :: done)

/-- The text of these bytes, which are refused where they are not UTF-8. -/
def ofBytes (bs : Bytes) : Reader String :=
  match bs.text? with
  | some s => pure s
  | none => fail (.malformed .badText)

/-- The inside of a text and its closing quote. -/
def text : Reader String := do ofBytes (← characters (← bound) [])

/-! ## Passing over

A text that nobody reads is held to less: its escapes need not make characters, and its bytes need
not be UTF-8. -/

def skipEscape : Reader Unit := do
  let b ← next
  if b = 'u' then (fun _ => ()) <$> unit
  else if (letters.lookup b).isSome then pure ()
  else fail (.malformed .badEscape)

/-- The place of a control character that nobody reads is in front of it. -/
def skipCharacters : Bytes → Reader Unit
  | [] => breakOff .text
  | _ :: bound => fun bs => match bs with
    | [] => breakOff .text bs
    | b :: rest =>
      if b = '"' then .ok ((), rest)
      else if b = '\\' then (skipEscape *> skipCharacters bound) rest
      else if b < ' ' then fail (.malformed .controlCharacter) bs
      else skipCharacters bound rest

def skipText : Reader Unit := do skipCharacters (← bound)

end AccessCache.Json.Reader
