import AccessCache.Disk.Record
import AccessCache.Table

/-!
# Credentials on disk

One database holds the record of each key, under the key's part; the other holds the same records
turned round, under the pair of device and key, so that the keys of a device stand together.
Digests may coincide: a record counts only for the key that it holds, and a save takes away the
turned record of whatever it overwrites.
-/

namespace AccessCache.Disk

structure Credentials where
  keys : Database
  devices : Database

namespace Credentials

def empty : Credentials := ⟨∅, ∅⟩

/-- The turned records without that of a record about to be overwritten. -/
def withoutStale (devices : Database) : Option (Record CredentialKey DeviceId) → Database
  | some old => devices.erase (Key.pair old.value.text old.key.secret)
  | none => devices

def save (capacity : Option Nat) (k : CredentialKey) (d : DeviceId) (t : Credentials) :
    Except StoreError Credentials := do
  let old ← t.keys.record? (Key.part k.secret)
  let keys ← t.keys.put capacity (Key.part k.secret) (Record.encode ⟨k, d⟩)
  let devices ← (withoutStale t.devices old).put capacity (Key.pair d.text k.secret)
    (Record.encode (⟨d, k⟩ : Record DeviceId CredentialKey))
  pure ⟨keys, devices⟩

def find (k : CredentialKey) (t : Credentials) : Except StoreError (Option DeviceId) :=
  t.keys.value? (Key.part k.secret) k

/-- Removes one turned record, stored under `e.1`, and the record that it turns. -/
def drop (t : Credentials) (e : Bytes × Record DeviceId CredentialKey) : Credentials :=
  ⟨t.keys.erase (Key.part e.2.value.secret), t.devices.erase e.1⟩

def remove (d : DeviceId) (t : Credentials) : Except StoreError (Nat × Credentials) := do
  let found : List (Bytes × Record DeviceId CredentialKey) ←
    t.devices.records (Key.pairStart d.text)
  let own := found.filter (·.2.key = d)
  pure (own.length, own.foldl drop t)

def size (t : Credentials) : Nat := t.keys.size

end Credentials

def credentialTable (capacity : Option Nat) : CredentialTable Credentials where
  save := Credentials.save capacity
  find := Credentials.find
  remove := Credentials.remove
  size := Credentials.size

end AccessCache.Disk
