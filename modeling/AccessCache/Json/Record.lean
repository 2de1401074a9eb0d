import AccessCache.Json.Value

/-!
# Records

Readers that know the shape they want: texts, words, one of several names, and records. A record
is an object with named fields in any order, each at most once, or an array of its fields in
order. What a reader did not want it reads as far as it takes to say what it is.
-/

namespace AccessCache.Json.Reader

variable {α σ : Type}

/-- The value of a result, whose mismatch the reader fails with. -/
def check : Except Mismatch α → Reader α
  | .ok a => pure a
  | .error m => mismatch m

/-- What stands next; of a container only the bracket is looked at, which stays. -/
def found : Reader Found := do
  let c ← peek .value
  if c = '[' then pure .sequence
  else if c = '{' then pure .map
  else Value.found <$> atom c

/-- Fails with what stands next. -/
def unexpected (wanted : String) : Reader α := do
  mismatch (.invalidType (← found) wanted)

def textOf (wanted : String) : Reader String := do
  if (← peek .value) = '"' then take *> text else unexpected wanted

/-- A text that the reader keeps. -/
def string : Reader String := textOf "a string"

/-- A whole number below `limit`. -/
def word (limit : Nat) (wanted : String) : Reader Nat := do
  let c ← peek .value
  if c = '-' || isDigit c then
    match ← number with
    | .integer i =>
      if 0 ≤ i ∧ i < limit then pure i.toNat else mismatch (.invalidValue (.integer i) wanted)
    | .float x => mismatch (.invalidType (.float x) wanted)
  else unexpected wanted

/-- What a name stands for among the given names. -/
def ofName (names : List (String × α)) (s : String) : Except Mismatch α :=
  match names.lookup s with
  | some a => .ok a
  | none => .error (.unknownVariant s (names.map (·.1)))

/-- What is called for where a name should stand. -/
def nameWanted : String := "variant identifier"

/-- One of the given names. -/
def name (names : List (String × α)) : Reader α := do check (ofName names (← textOf nameWanted))

def null : Reader Unit := do
  if (← peek .value) = 'n' then literal ['n', 'u', 'l', 'l'] else unexpected "unit"

/-- One of the given names, alone or as the only member of an object with the value null. -/
def choice (names : List (String × α)) : Reader α := do
  let c ← peek .value
  if c = '"' then name names
  else if c = '{' then
    take
    if (← peek .value) = '"' then take else refuse .bareName
    let a ← check (ofName names (← text))
    colon
    null
    if (← peek .object) = '}' then take else fail (.malformed .noValue)
    pure a
  else refuse .noValue

/-! ## Records -/

/-- A field of a record of which `σ` holds what has been read. -/
structure Field (σ : Type) where
  name : String
  filled : σ → Bool
  fill : σ → Reader σ

/-- How a record is read: what it is called, its fields in order, what becomes of a member that is
no field, and what the fields make once all of them are there. -/
structure Shape (σ α : Type) where
  wanted : String
  /-- What is called for where an array ends early. -/
  wantedLength : String
  fields : List (Field σ)
  other : String → Reader Unit
  make : σ → Except Mismatch α

namespace Shape

variable (r : Shape σ α)

/-- One member of an object, behind its name `k`. -/
def member (s : σ) (k : String) : Reader σ :=
  match r.fields.find? (·.name = k) with
  | some f => if f.filled s then mismatchIn '}' (.duplicateField k) else colon *> f.fill s
  | none => (fun _ => s) <$> r.other k

/-- The members of an object, from an empty record on. -/
def members (s : σ) : Reader α := do
  let s ← object text r.member s
  match r.fields.find? (fun f => !f.filled s) with
  | some f => mismatch (.missingField f.name)
  | none => check (r.make s)

/-- The elements of an array, of which `i` have been read. What they make is settled before the
closing bracket is looked for. -/
def elements : List (Field σ) → Nat → σ → Reader α
  | [], _, s => match r.make s with
    | .ok a => endArray *> pure a
    | .error m => mismatchIn ']' m
  | f :: fs, i, s => do
    if ← moreElements (i = 0) then
      let s ← f.fill s
      elements fs (i + 1) s
    else mismatchIn ']' (.invalidLength i r.wantedLength)

/-- Reads a record in either form. -/
def read (s : σ) : Reader α :=
  dispatch (r.elements r.fields 0 s) (r.members s) (fun _ => unexpected r.wanted)

end Shape

/-- Passes over a member that is no field. -/
def ignoreMember (_ : String) : Reader Unit := colon *> skip

end AccessCache.Json.Reader
