import AccessCache.Config.Basic
import AccessCache.Json.Record
import AccessCache.Json.Printer

/-!
# Configuration documents

Settings and durations as documents: how they are written and which documents are read as them.
-/

namespace AccessCache

open Json

/-! ## Durations -/

namespace Duration

/-- The parts of a duration read so far. -/
structure Parts where
  secs : Option Nat := none
  nanos : Option Nat := none

/-- Nanoseconds beyond a second are carried into the seconds. -/
def shape : Reader.Shape Parts Duration where
  wanted := "struct Duration"
  wantedLength := "struct Duration"
  fields := [
    ⟨"secs", fun p => p.secs.isSome,
      fun p => do pure { p with secs := some (← Reader.word UInt64.size "u64") }⟩,
    ⟨"nanos", fun p => p.nanos.isSome,
      fun p => do pure { p with nanos := some (← Reader.word UInt32.size "u32") }⟩]
  other name := Reader.mismatchIn '}' (.unknownField name ["secs", "nanos"])
  make p := match ofParts? (p.secs.getD 0) (p.nanos.getD 0) with
    | some d => .ok d
    | none => .error .durationOverflow

def reader : Reader Duration := shape.read {}

def print (d : Duration) : List Char :=
  Printer.object [("secs", Printer.natural d.secs), ("nanos", Printer.natural d.nanos)]

end Duration

/-! ## Settings -/

namespace StorageKind

def label : StorageKind → String
  | memory => "InMemory"
  | disk => "Lmdb"

def reader : Reader StorageKind :=
  Reader.choice ([memory, disk].map fun k => (k.label, k))

def print (k : StorageKind) : List Char := Printer.text k.label

end StorageKind

namespace Config

/-- The settings read so far. -/
structure Parts where
  storage : Option StorageKind := none
  path : Option String := none
  maxSizeMb : Option UInt64 := none
  timeout : Option Duration := none

def shape : Reader.Shape Parts Config where
  wanted := "struct CacheConfig"
  wantedLength := "struct CacheConfig with 4 elements"
  fields := [
    ⟨"backend", fun p => p.storage.isSome,
      fun p => do pure { p with storage := some (← StorageKind.reader) }⟩,
    ⟨"lmdb_path", fun p => p.path.isSome,
      fun p => do pure { p with path := some (← Reader.textOf "path string") }⟩,
    ⟨"lmdb_max_size_mb", fun p => p.maxSizeMb.isSome,
      fun p => do
        pure { p with maxSizeMb := some (UInt64.ofNat (← Reader.word UInt64.size "usize")) }⟩,
    ⟨"operation_timeout", fun p => p.timeout.isSome,
      fun p => do pure { p with timeout := some (← Duration.reader) }⟩]
  other := Reader.ignoreMember
  make p := .ok {
    storage := p.storage.getD default.storage
    path := p.path.getD default.path
    maxSizeMb := p.maxSizeMb.getD default.maxSizeMb
    timeout := p.timeout.getD default.timeout }

def reader : Reader Config := shape.read {}

def read (s : String) : Except Failure Config := reader.run s

/-- The settings in the order of their declaration. -/
def print (c : Config) : List Char :=
  Printer.object [
    ("backend", c.storage.print),
    ("lmdb_path", Printer.text c.path),
    ("lmdb_max_size_mb", Printer.natural c.maxSizeMb.toNat),
    ("operation_timeout", c.timeout.print)]

end Config

end AccessCache
