import AccessCache.Json.Number

/-!
# Document trees

A document as a tree, members in reading order and repeated names kept. Containers nest to a
bounded depth, by which the reader recurs. A value that nobody reads is passed over in one loop,
without a bound on its depth and without giving its numerals a value.
-/

namespace AccessCache.Json

inductive Value where
  | null
  | boolean (b : Bool)
  | number (n : Number)
  | text (s : String)
  | array (items : List Value)
  | object (members : List (String × Value))

namespace Value

def found : Value → Found
  | null => .null
  | boolean b => .boolean b
  | number n => n.found
  | text s => .text s
  | array _ => .sequence
  | object _ => .map

/-- How deep the containers of a document may nest. -/
def maxDepth : Nat := 127

end Value

namespace Reader

variable {α : Type}

/-- Reads on by the kind of value that comes next; an opening bracket is taken. -/
def dispatch (onArray onObject : Reader α) (onAtom : UInt8 → Reader α) : Reader α := do
  let c ← peek .value
  if c = '[' then take *> onArray
  else if c = '{' then take *> onObject
  else onAtom c

/-- A value that is no container and starts at `c`, the next character. -/
def atom (c : UInt8) : Reader Value :=
  if c = '"' then take *> .text <$> text
  else if c = 'n' then (fun _ => .null) <$> literal ['n', 'u', 'l', 'l']
  else if c = 't' then (fun _ => .boolean true) <$> literal ['t', 'r', 'u', 'e']
  else if c = 'f' then (fun _ => .boolean false) <$> literal ['f', 'a', 'l', 's', 'e']
  else if c = '-' || isDigit c then .number <$> number
  else refuse .noValue

/-- The elements of an array, each read by `item`. -/
def items (item : Reader α) : Reader (List α) :=
  List.reverse <$> array (fun done => (· :: done) <$> item) []

/-- The named members of an object, each value read by `item`. -/
def namedMembers (item : Reader α) : Reader (List (String × α)) :=
  List.reverse <$> object text (fun done k => do
    colon
    let v ← item
    pure ((k, v) :: done)) []

/-- A value whose containers nest at most `depth` deep. -/
def value : Nat → Reader Value
  | 0 => do
    let c ← peek .value
    if c = '[' || c = '{' then refuse .tooDeep else atom c
  | d + 1 => dispatch (.array <$> items (value d)) (.object <$> namedMembers (value d)) atom

/-! ## Passing over

The brackets that are open are kept in a list, innermost first. -/

/-- An atom that starts at `c`, not looked into. -/
def skipAtom (c : UInt8) : Reader Unit :=
  if c = '"' then take *> skipText
  else if c = '-' || isDigit c then
    (fun _ => ()) <$> Numeral.read (.malformed .badNumber)
  else (fun _ => ()) <$> atom c

/-- A container that is passed over. -/
inductive Container where
  | array
  | object

namespace Container

def ofOpening? (b : UInt8) : Option Container :=
  if b = '[' then some array else if b = '{' then some object else none

def closing : Container → UInt8
  | array => ']'
  | object => '}'

def unfinished : Container → Unfinished
  | array => .array
  | object => .object

/-- What is wrong where neither a comma nor the closing bracket follows. -/
def flaw : Container → Flaw
  | array => .openArray
  | object => .openObject

/-- What stands in front of each value inside: the name of a member, for an object. -/
def lead : Container → Reader Unit
  | array => pure ()
  | object => do
    if (← peek .object) = '"' then take *> skipText else refuse .bareName
    colon

end Container

/-- Passes over what is left of the open containers, after a value of the innermost one or, where
one is `due`, in front of it. -/
def skipFrom : Bytes → Bool → List Container → Reader Unit
  | _, false, [] => pure ()
  | [], _, _ => breakOff .value
  | _ :: bound, true, stack => do
    let c ← peek .value
    match Container.ofOpening? c with
    | some k =>
      take
      if (← peek k.unfinished) = k.closing then
        take
        skipFrom bound false stack
      else
        k.lead
        skipFrom bound true (k :: stack)
    | none =>
      skipAtom c
      skipFrom bound false stack
  | _ :: bound, false, k :: stack => do
    let c ← peek k.unfinished
    if c = ',' then
      take
      k.lead
      skipFrom bound true (k :: stack)
    else if c = k.closing then
      take
      skipFrom bound false stack
    else refuse k.flaw

/-- Passes over any value. -/
def skip : Reader Unit := do skipFrom (← bound) true []

end Reader

/-- The document that a text holds. -/
def Value.parse (s : String) : Except Failure Value := (Reader.value Value.maxDepth).run s

end AccessCache.Json
