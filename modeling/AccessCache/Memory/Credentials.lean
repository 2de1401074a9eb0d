import AccessCache.Index
import AccessCache.Table

/-!
# Credentials in memory

Keys with their devices, and for each device the set of its keys, by which a device is removed.
-/

namespace AccessCache.Memory

/-- The device of each key and the keys of each device. -/
structure Credentials where
  devices : Std.ExtTreeMap CredentialKey DeviceId
  keys : Index DeviceId CredentialKey

namespace Credentials

def empty : Credentials := ⟨∅, ∅⟩

def find (k : CredentialKey) (t : Credentials) : Option DeviceId := t.devices[k]?

/-- The keys of the devices without `k`. -/
def released (k : CredentialKey) (t : Credentials) : Index DeviceId CredentialKey :=
  match t.devices[k]? with
  | some previous => t.keys.detach previous k
  | none => t.keys

/-- Gives `k` to the device `d`, whichever device had it before. -/
def save (k : CredentialKey) (d : DeviceId) (t : Credentials) : Credentials where
  devices := t.devices.insert k d
  keys := (t.released k).attach d k

/-- Removes every key of `d`. -/
def remove (d : DeviceId) (t : Credentials) : Nat × Credentials :=
  match t.keys[d]? with
  | some ks => (ks.size, ⟨ks.toList.foldl (·.erase ·) t.devices, t.keys.erase d⟩)
  | none => (0, t)

def size (t : Credentials) : Nat := t.devices.size

end Credentials

/-- Tables in memory never fail. -/
def credentialTable : CredentialTable Credentials where
  save k d t := .ok (t.save k d)
  find k t := .ok (t.find k)
  remove d t := .ok (t.remove d)
  size := Credentials.size

end AccessCache.Memory
