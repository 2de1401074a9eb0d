import AccessCache.Cache.Tabled
import AccessCache.Disk.Credentials
import AccessCache.Disk.Links
import AccessCache.Disk.Roles

/-!
# Caches on disk

The five caches over databases, one store for each cache. A store is opened in a directory and
with a size, either of which may be unusable.
-/

namespace AccessCache.Disk

/-- The databases of the five caches. -/
abbrev State := Tables Credentials (fun _ _ => Links) Roles

def empty : State := ⟨⟨.empty, {}⟩, ⟨.empty, {}⟩, ⟨.empty, {}⟩, ⟨.empty, {}⟩, ⟨.empty, {}⟩⟩

/-- The caches over stores of so many bytes. -/
def caches (capacity : Option Nat) : Caches State :=
  Tables.caches (credentialTable capacity) (linkTable capacity) (roleTable capacity)

/-- Opens the stores: the size has to fit 64 bits in bytes, and the root has to be a directory. -/
def openStores (maxSizeMb : UInt64) (rootIsFile : Bool) : Except StoreError (Caches State) :=
  if UInt64.size ≤ maxSizeMb.toNat * 1048576 then
    .error (.environmentOpen ("map size of " ++ toString maxSizeMb.toNat ++ " MB overflows"))
  else if rootIsFile then .error (.io "Not a directory (os error 20)")
  else .ok (caches (some (bytesOf maxSizeMb)))

/-! ## Databases by name -/

def keysPart : Part State Database where
  get s := s.credentials.table.keys
  set db s := { s with credentials.table.keys := db }

def devicesPart : Part State Database where
  get s := s.credentials.table.devices
  set db s := { s with credentials.table.devices := db }

def deviceLinksPart : Part State Database where
  get s := s.deviceGroups.table.links
  set db s := { s with deviceGroups.table.links := db }

def profileLinksPart : Part State Database where
  get s := s.profileGroups.table.links
  set db s := { s with profileGroups.table.links := db }

def orgLinksPart : Part State Database where
  get s := s.groupOrgs.table.links
  set db s := { s with groupOrgs.table.links := db }

def assignmentsPart : Part State Database where
  get s := s.roles.table.assignments
  set db s := { s with roles.table.assignments := db }

def membershipsPart : Part State Database where
  get s := s.roles.table.memberships
  set db s := { s with roles.table.memberships := db }

/-- The databases in the store of each relation. -/
def databases : Relation → List (String × Part State Database)
  | .credential => [("keys", keysPart), ("devices", devicesPart)]
  | .deviceGroup => [("links", deviceLinksPart)]
  | .profileGroup => [("links", profileLinksPart)]
  | .groupOrg => [("links", orgLinksPart)]
  | .role => [("assignments", assignmentsPart), ("memberships", membershipsPart)]

end AccessCache.Disk
