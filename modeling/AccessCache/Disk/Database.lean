import AccessCache.Error
import Std.Data.ExtTreeMap

/-!
# Databases

A database on disk: records of bytes under byte keys, in ascending order of the keys. Each record
may have to fit a bounded store by itself.
-/

namespace AccessCache.Disk

/-- Records by key. -/
abbrev Database := Std.ExtTreeMap Bytes Bytes

namespace Database

/-- Whether a record fits a store of so many bytes; without a bound every record does. The record is
held to the bound alone: what the store holds already takes no room from it, so a store fills up by
a record that is too large, never by many that are small. -/
def Fits (capacity : Option Nat) (key value : Bytes) : Prop :=
  ∀ n ∈ capacity, key.length + value.length ≤ n

instance (capacity : Option Nat) (key value : Bytes) : Decidable (Fits capacity key value) :=
  match capacity with
  | none => .isTrue (by simp [Fits])
  | some n => decidable_of_iff (key.length + value.length ≤ n) (by simp [Fits])

/-- Writes a record, if it fits. -/
def put (capacity : Option Nat) (key value : Bytes) (db : Database) : Except StoreError Database :=
  if Fits capacity key value then .ok (db.insert key value) else .error .full

/-- The records whose keys begin with `start`. -/
def scan (start : Bytes) (db : Database) : List (Bytes × Bytes) :=
  db.toList.filter fun e => start.isPrefixOf e.1

end Database

/-- The size in bytes of a store of so many units of `2 ^ 20` bytes; a store of size zero gets
one unit. -/
def bytesOf (maxSizeMb : UInt64) : Nat :=
  if maxSizeMb = 0 then 1048576 else maxSizeMb.toNat * 1048576

end AccessCache.Disk
