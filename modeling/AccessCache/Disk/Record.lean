import AccessCache.Disk.Database
import AccessCache.Document

/-!
# Records

The value of a record on disk holds the whole key beside the payload, since the key that it is
stored under may be a digest. Records are documents; reading them accepts what any reader of
records accepts.
-/

namespace AccessCache.Disk

open Json

/-! ## Contents -/

/-- What a record may hold: how it is written and how it is read. -/
class Content (α : Type) where
  print : α → List Char
  reader : Reader α

instance (n : Noun) : Content (Id n) := ⟨Id.print, Id.reader⟩

instance : Content CredentialKey := ⟨CredentialKey.print, CredentialKey.reader⟩

/-- Two values in an array. -/
def pairReader {α β : Type} (first : Reader α) (second : Reader β) : Reader (α × β) :=
  let wanted := "a tuple of size 2"
  do
    if (← Reader.peek .value) = '[' then
      Reader.take
      if !(← Reader.moreElements true) then Reader.mismatchIn ']' (.invalidLength 0 wanted)
      let a ← first
      if !(← Reader.moreElements false) then Reader.mismatchIn ']' (.invalidLength 1 wanted)
      let b ← second
      Reader.endArray
      pure (a, b)
    else Reader.unexpected wanted

/-- The pair of a role, group first. -/
instance : Content RoleKey where
  print k := Printer.array [k.group.print, k.member.print]
  reader := (fun p => ⟨p.1, p.2⟩) <$> pairReader Id.reader Id.reader

/-! ## Records -/

/-- A payload beside the whole key that it belongs to. -/
structure Record (κ ν : Type) where
  key : κ
  value : ν
  deriving DecidableEq

namespace Record

variable {κ ν : Type} [Content κ] [Content ν]

def print (r : Record κ ν) : List Char :=
  Printer.object [("key", Content.print r.key), ("value", Content.print r.value)]

/-- The bytes of a record. -/
def encode (r : Record κ ν) : Bytes := utf8 (String.ofList r.print)

/-- The parts of a record read so far. -/
structure Parts (κ ν : Type) where
  key : Option κ := none
  value : Option ν := none

def shape : Reader.Shape (Parts κ ν) (Record κ ν) where
  wanted := "struct Record"
  wantedLength := "struct Record with 2 elements"
  fields := [
    ⟨"key", fun p => p.key.isSome, fun p => do pure { p with key := some (← Content.reader) }⟩,
    ⟨"value", fun p => p.value.isSome,
      fun p => do pure { p with value := some (← Content.reader) }⟩]
  other := Reader.ignoreMember
  make p := match p.key, p.value with
    | some k, some v => .ok ⟨k, v⟩
    | none, _ => .error (.missingField "key")
    | some _, none => .error (.missingField "value")

def reader : Reader (Record κ ν) := shape.read {}

/-- The record that these bytes hold. -/
def decode (bs : Bytes) : Except StoreError (Record κ ν) :=
  match reader.runBytes bs with
  | .ok r => .ok r
  | .error f => .error (.deserialization (f.message bs))

end Record

/-! ## Records in databases -/

namespace Database

variable {κ ν : Type} [Content κ] [Content ν]

/-- The record under a key. -/
def record? (db : Database) (key : Bytes) : Except StoreError (Option (Record κ ν)) :=
  match db[key]? with
  | none => .ok none
  | some bs => some <$> Record.decode bs

/-- The value under `place`, if the record there holds the key `k`. -/
def value? [DecidableEq κ] (db : Database) (place : Bytes) (k : κ) :
    Except StoreError (Option ν) := do
  let r : Option (Record κ ν) ← db.record? place
  pure ((r.filter (·.key = k)).map (·.value))

/-- The records whose keys begin with `start`; one that cannot be read fails them all. -/
def records (db : Database) (start : Bytes) : Except StoreError (List (Bytes × Record κ ν)) :=
  (db.scan start).mapM fun e => do pure (e.1, ← Record.decode e.2)

end Database

end AccessCache.Disk
