import AccessCache.Cache.Basic

/-!
# Facts

What can be saved into caches, looked up there and removed from them, whichever of the five caches
it concerns.
-/

namespace AccessCache

/-- An entry for one of the caches. -/
inductive Fact where
  | credential (key : CredentialKey) (device : DeviceId)
  | deviceGroup (device : DeviceId) (group : GroupId)
  | profileGroup (profile : ProfileId) (group : GroupId)
  | groupOrg (group : GroupId) (org : OrgId)
  | role (key : RoleKey) (role : Role)
  deriving DecidableEq

/-- The key of an entry. -/
inductive Query where
  | credential (key : CredentialKey)
  | deviceGroup (device : DeviceId)
  | profileGroup (profile : ProfileId)
  | groupOrg (group : GroupId)
  | role (key : RoleKey)
  deriving DecidableEq

/-- The noun of what an entry holds. -/
def Query.noun : Query → Noun
  | .credential _ => .device
  | .deviceGroup _ => .group
  | .profileGroup _ => .group
  | .groupOrg _ => .org
  | .role _ => .role

/-- What entries are removed by: a credential goes with its device. -/
inductive Removal where
  | credentials (device : DeviceId)
  | deviceGroup (device : DeviceId)
  | profileGroup (profile : ProfileId)
  | groupOrg (group : GroupId)
  | role (key : RoleKey)
  deriving DecidableEq

namespace Caches

variable {σ : Type} (c : Caches σ)

def save : Fact → Call σ Unit
  | .credential k d => c.credentials.save k d
  | .deviceGroup d g => c.deviceGroups.save d g
  | .profileGroup p g => c.profileGroups.save p g
  | .groupOrg g o => c.groupOrgs.save g o
  | .role k r => c.roles.save k r

def lookup : (q : Query) → Call σ (Id q.noun)
  | .credential k => c.credentials.resolve k
  | .deviceGroup d => c.deviceGroups.resolve d
  | .profileGroup p => c.profileGroups.resolve p
  | .groupOrg g => c.groupOrgs.resolve g
  | .role k => c.roles.resolve k

def remove : Removal → Call σ Unit
  | .credentials d => c.credentials.remove d
  | .deviceGroup d => c.deviceGroups.remove d
  | .profileGroup p => c.profileGroups.remove p
  | .groupOrg g => c.groupOrgs.remove g
  | .role k => c.roles.remove k

end Caches

end AccessCache
