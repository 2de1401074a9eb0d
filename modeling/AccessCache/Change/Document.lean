import AccessCache.Change.Basic
import AccessCache.Json.Record
import AccessCache.Json.Printer

/-!
# Change documents

A change is written as an object with its tag first, and read from an object whose tag may stand
anywhere or from an array that starts with the tag. The tag is read where it stands; the rest is
kept as it comes and read as the fields of the tag once the container has ended.
-/

namespace AccessCache.Change

open Json

/-! ## Writing -/

def printField (c : Change) : Field → List Char
  | .members => Printer.array (c.members.map Printer.text)
  | f => Printer.text (c.text f)

/-- The tag, and the fields in order. -/
def print (c : Change) : List Char :=
  Printer.object (("event", Printer.text c.tag.name) ::
    c.tag.fields.map fun f => (f.name, c.printField f))

/-! ## Tags -/

/-- What the document of a change is called. -/
def wanted : String := "internally tagged enum RelationEvent"

def tagNames : List (String × Tag) := Tag.all.map fun t => (t.name, t)

def tagReader : Reader Tag := Reader.name tagNames

/-- What an object or an array holds beside the tag. -/
inductive Content where
  | object (members : List (String × Value))
  | array (items : List Value)

/-- How deep the values beside the tag may nest, inside the container of the tag. -/
def innerDepth : Nat := Value.maxDepth - 1

/-- One member of an object: the tag, or something kept for later. -/
def taggedMember (s : Option Tag × List (String × Value)) (k : String) :
    Reader (Option Tag × List (String × Value)) :=
  if k = "event" then do
    if s.1.isSome then Reader.mismatchIn '}' (.duplicateField k)
    Reader.colon
    let t ← tagReader
    pure (some t, s.2)
  else do
    Reader.colon
    let v ← Reader.value innerDepth
    pure (s.1, (k, v) :: s.2)

def taggedObject : Reader (Tag × Content) := do
  let (t, ms) ← Reader.object Reader.text taggedMember (none, [])
  match t with
  | none => Reader.mismatch (.missingField "event")
  | some t => pure (t, .object ms.reverse)

/-- The elements of an array after the first. -/
def laterItems : Reader (List Value) := do
  let items ← Reader.elements (fun done => (· :: done) <$> Reader.value innerDepth)
    (← Reader.bound) false []
  Reader.endArray
  pure items.reverse

def taggedArray : Reader (Tag × Content) := do
  if !(← Reader.moreElements true) then Reader.mismatchIn ']' (.missingField "event")
  let t ← tagReader
  let items ← laterItems
  pure (t, .array items)

/-- The tag of a change, and what stands beside it. -/
def tagged : Reader (Tag × Content) :=
  Reader.dispatch taggedArray taggedObject (fun _ => Reader.unexpected wanted)

/-! ## Fields -/

/-- What has been read of the fields. -/
structure Parts where
  texts : List (Field × String) := []
  members : Option (List String) := none

namespace Parts

def filled (p : Parts) : Field → Bool
  | .members => p.members.isSome
  | f => (p.texts.lookup f).isSome

/-- The text of a field, empty where none has been read. -/
def text (p : Parts) (f : Field) : String := (p.texts.lookup f).getD ""

end Parts

def textOfValue (v : Value) : Except Mismatch String :=
  match v with
  | .text s => .ok s
  | v => .error (.invalidType v.found "a string")

def textsOfValue (v : Value) : Except Mismatch (List String) :=
  match v with
  | .array items => items.mapM textOfValue
  | v => .error (.invalidType v.found "a sequence")

/-- Fills one field from a value. -/
def Parts.fill (p : Parts) (f : Field) (v : Value) : Except Mismatch Parts :=
  match f with
  | .members => do pure { p with members := some (← textsOfValue v) }
  | f => do pure { p with texts := (f, ← textOfValue v) :: p.texts }

/-- Fills the fields from the members of an object in reading order. -/
def fillMembers (fields : List Field) (p : Parts) : List (String × Value) → Except Mismatch Parts
  | [] => .ok p
  | (k, v) :: ms => match fields.find? (·.name = k) with
    | none => fillMembers fields p ms
    | some f => do
      if p.filled f then throw (.duplicateField k)
      fillMembers fields (← p.fill f v) ms

/-- A number of elements in words. -/
def elementsText (n : Nat) : String := toString n ++ if n = 1 then " element" else " elements"

/-- Fills the fields from the elements of an array, of which `total` are called for and `i` have
been used. Members that are not there are none. -/
def fillItems (t : Tag) (i : Nat) (p : Parts) : List Field → List Value → Except Mismatch Parts
  | [], [] => .ok p
  | [], rest => .error (.invalidLength (i + rest.length)
      (elementsText i ++ " in sequence"))
  | .members :: fs, [] => fillItems t i p fs []
  | _ :: _, [] => .error (.invalidLength i ("struct variant RelationEvent::" ++ t.label ++ " with "
      ++ elementsText t.fields.length))
  | f :: fs, v :: vs => do fillItems t (i + 1) (← p.fill f v) fs vs

/-- The first field that is called for and missing. -/
def missing? (fields : List Field) (p : Parts) : Option Field :=
  fields.find? fun f => f ≠ .members && !p.filled f

/-- The change with this tag and this content. -/
def ofContent (t : Tag) (c : Content) : Except Mismatch Change := do
  let p ← match c with
    | .object ms => do
      let p ← fillMembers t.fields {} ms
      match missing? t.fields p with
      | some f => throw (.missingField f.name)
      | none => pure p
    | .array items => fillItems t 0 {} t.fields items
  pure (t.change p.text (p.members.getD []))

/-! ## Reading -/

def reader : Reader Change := do
  let (t, c) ← tagged
  Reader.check (ofContent t c)

/-- The change that a text holds. -/
def read (s : String) : Except Failure Change := reader.run s

/-! ## Trees

A document that has been read as a tree already, without repeated members. -/

/-- The tag that a value names. -/
def tagOfValue : Value → Except Mismatch Tag
  | .text s => Reader.ofName tagNames s
  | v => .error (.invalidType v.found Reader.nameWanted)

/-- The change that a tree holds. -/
def ofValue : Value → Except Mismatch Change
  | .object ms => match ms.lookup "event" with
    | none => .error (.missingField "event")
    | some v => do ofContent (← tagOfValue v) (.object (ms.filter (·.1 ≠ "event")))
  | .array [] => .error (.missingField "event")
  | .array (v :: items) => do ofContent (← tagOfValue v) (.array items)
  | v => .error (.invalidType v.found wanted)

end AccessCache.Change
