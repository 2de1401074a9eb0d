import AccessCache.Authority.Basic
import Std.Data.ExtTreeMap

/-!
# Registries

An authority that keeps its relations in memory. It counts every question, also those that it
does not answer because it is offline.
-/

namespace AccessCache

structure Registry where
  devices : Std.ExtTreeMap CredentialKey DeviceId := ∅
  deviceGroups : Std.ExtTreeMap DeviceId GroupId := ∅
  profileGroups : Std.ExtTreeMap ProfileId GroupId := ∅
  groupOrgs : Std.ExtTreeMap GroupId OrgId := ∅
  roles : Std.ExtTreeMap RoleKey Role := ∅
  /-- How many questions have been asked. -/
  lookups : Nat := 0
  offline : Bool := false

namespace Registry

variable {σ α : Type}

/-! ## Mutations -/

def addDevice (k : CredentialKey) (d : DeviceId) (g : GroupId) (r : Registry) : Registry :=
  { r with devices := r.devices.insert k d, deviceGroups := r.deviceGroups.insert d g }

/-- Forgets the device, its group and every key of it. -/
def removeDevice (d : DeviceId) (r : Registry) : Registry :=
  { r with
    devices := r.devices.filter fun _ d' => d' ≠ d
    deviceGroups := r.deviceGroups.erase d }

def moveDevice (d : DeviceId) (g : GroupId) (r : Registry) : Registry :=
  { r with deviceGroups := r.deviceGroups.insert d g }

def addProfile (p : ProfileId) (g : GroupId) (r : Registry) : Registry :=
  { r with profileGroups := r.profileGroups.insert p g }

def addGroup (g : GroupId) (o : OrgId) (r : Registry) : Registry :=
  { r with groupOrgs := r.groupOrgs.insert g o }

def assignRole (k : RoleKey) (role : Role) (r : Registry) : Registry :=
  { r with roles := r.roles.insert k role }

def revokeRole (k : RoleKey) (r : Registry) : Registry :=
  { r with roles := r.roles.erase k }

/-! ## Questions -/

/-- What an offline registry says. -/
def outage : AuthorityError := ⟨"authority offline"⟩

/-- Counts a question and answers it unless offline. -/
def ask (find : Registry → Option α) : Act Registry (Answer α) := fun r =>
  ⟨if r.offline then .error outage else .ok (find r), { r with lookups := r.lookups + 1 }, []⟩

/-- The registry as the authority, in a state of which it is a part. -/
def authority (p : Part σ Registry) : Authority σ where
  deviceOfKey k := (ask (·.devices[k]?)).on p
  groupOfDevice d := (ask (·.deviceGroups[d]?)).on p
  groupOfProfile f := (ask (·.profileGroups[f]?)).on p
  orgOfGroup g := (ask (·.groupOrgs[g]?)).on p
  roleOf k := (ask (·.roles[k]?)).on p

end Registry

end AccessCache
