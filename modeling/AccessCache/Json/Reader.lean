import AccessCache.Json.Failure

/-!
# Reading documents

A reader takes bytes off the front of a document and gives a value, or fails. The first obstacle
in reading order is the one reported. All that the format itself is made of is ASCII; other bytes
stand inside texts only, and what they encode is looked at where a text is kept.
-/

namespace AccessCache.Json

/-- Among bytes a character stands for its own byte, and is one of ASCII. -/
scoped instance byteOfChar : Coe Char UInt8 := ⟨Char.toUInt8⟩

/-- A reader of `α`: the bytes left to read are its state. -/
abbrev Reader (α : Type) := StateT Bytes (Except Failure) α

namespace Reader

variable {α σ κ : Type}

/-- Fails where the reader stands. -/
def fail (o : Obstacle) : Reader α := fun bs => .error ⟨o, bs.length⟩

/-- Refuses what comes next: the place is behind its first byte. -/
def refuse (f : Flaw) : Reader α := fun bs => .error ⟨.malformed f, bs.length - 1⟩

/-- Fails at the end of the document. -/
def breakOff (u : Unfinished) : Reader α := fun _ => .error ⟨.truncated u, 0⟩

def mismatch (m : Mismatch) : Reader α := fail (.mismatch m)

/-- The four characters that may stand between tokens. -/
def isBlank (b : UInt8) : Bool := b = ' ' || b = '\n' || b = '\t' || b = '\r'

/-- Fails with a mismatch of a whole container: the place is behind its closing bracket where that
comes next. -/
def mismatchIn (closing : UInt8) (m : Mismatch) : Reader α := fun bs =>
  match bs.dropWhile isBlank with
  | [] => mismatch m []
  | b :: rest => mismatch m (if b = closing then rest else b :: rest)

/-- The next byte after blanks, which stays in place. -/
def peek (u : Unfinished) : Reader UInt8 := fun bs =>
  match bs.dropWhile isBlank with
  | [] => .error ⟨.truncated u, 0⟩
  | b :: rest => .ok (b, b :: rest)

/-- Drops one byte. -/
def take : Reader Unit := fun bs => .ok ((), bs.tail)

/-- Reads exactly these characters. -/
def literal : List Char → Reader Unit
  | [] => pure ()
  | c :: word => fun bs => match bs with
    | [] => breakOff .value bs
    | b :: rest => if b = c then literal word rest else refuse .noWord bs

/-- The end of the document, which only blanks may precede. -/
def finish : Reader Unit := fun bs =>
  match bs.dropWhile isBlank with
  | [] => .ok ((), [])
  | rest => refuse .trailing rest

/-- Reads all of these bytes. -/
def runBytes (r : Reader α) (bs : Bytes) : Except Failure α := (r <* finish).run' bs

/-- Reads a whole text. -/
def run (r : Reader α) (text : String) : Except Failure α := r.runBytes (utf8 text)

/-! ## Containers

The opening bracket has been read. Each round of a loop takes at least one byte, so that a list as
long as the document, and one longer, bounds the rounds; the document itself is such a list. -/

/-- One more than the bytes left. -/
def bound : Reader Bytes := fun bs => .ok (' ' :: bs, bs)

/-- Whether another element follows; the closing bracket stays. -/
def moreElements (first : Bool) : Reader Bool := do
  let c ← peek .array
  if c = ']' then pure false
  else if first then pure true
  else if c = ',' then
    take
    if (← peek .value) = ']' then refuse .trailingComma else pure true
  else refuse .openArray

/-- Whether another member follows; its opening quote has then been read. -/
def moreMembers (first : Bool) : Reader Bool := do
  let c ← peek .object
  if c = '}' then pure false
  else if first then
    if c = '"' then take; pure true else refuse .bareName
  else if c = ',' then
    take
    let c ← peek .value
    if c = '"' then take; pure true
    else if c = '}' then refuse .trailingComma
    else refuse .bareName
  else refuse .openObject

/-- The colon behind the name of a member. -/
def colon : Reader Unit := do
  if (← peek .object) = ':' then take else refuse .noColon

/-- The closing bracket of an array that must have no more elements. -/
def endArray : Reader Unit := do
  let c ← peek .array
  if c = ']' then take
  else if c = ',' then
    take
    fun bs =>
      let rest := bs.dropWhile isBlank
      if rest.head? = some (']' : UInt8) then refuse .trailingComma rest else refuse .trailing rest
  else refuse .trailing

/-- The closing bracket of an object that must have no more members. -/
def endObject : Reader Unit := do
  let c ← peek .object
  if c = '}' then take
  else if c = ',' then refuse .trailingComma
  else refuse .trailing

/-- The elements, each read with the state left by the one before. -/
def elements (item : σ → Reader σ) : Bytes → Bool → σ → Reader σ
  | [], _, _ => breakOff .array
  | _ :: bound, first, s => do
    if ← moreElements first then
      let s ← item s
      elements item bound false s
    else pure s

/-- All elements and the closing bracket. -/
def array (item : σ → Reader σ) (s : σ) : Reader σ := do
  let s ← elements item (← bound) true s
  endArray
  pure s

/-- The members; `member` starts at the colon. -/
def members (key : Reader κ) (member : σ → κ → Reader σ) : Bytes → Bool → σ → Reader σ
  | [], _, _ => breakOff .object
  | _ :: bound, first, s => do
    if ← moreMembers first then
      let k ← key
      let s ← member s k
      members key member bound false s
    else pure s

/-- All members and the closing bracket. -/
def object (key : Reader κ) (member : σ → κ → Reader σ) (s : σ) : Reader σ := do
  let s ← members key member (← bound) true s
  endObject
  pure s

end Reader

end AccessCache.Json
