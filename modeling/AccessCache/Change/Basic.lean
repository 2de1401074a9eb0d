import AccessCache.Key

/-!
# Changes

The changes that the authority commits to its relations. A change is its tag and the texts of the
tag's fields, and one kind of change carries a list of members besides.
-/

namespace AccessCache

/-- A committed change. -/
inductive Change where
  /-- A device was provisioned with a key inside a group. -/
  | deviceConnected (key : CredentialKey) (device : DeviceId) (group : GroupId)
  /-- Every previous key of the device is revoked in favour of the new one. -/
  | keyRotated (device : DeviceId) (key : CredentialKey)
  | deviceRemoved (device : DeviceId)
  | deviceReassigned (device : DeviceId) (group : GroupId)
  | profileAssigned (profile : ProfileId) (group : GroupId)
  | profileRemoved (profile : ProfileId)
  | groupAssigned (group : GroupId) (org : OrgId)
  /-- The group is gone; the members are those that had a role in it. -/
  | groupRemoved (group : GroupId) (members : List MemberId)
  | roleAssigned (group : GroupId) (member : MemberId) (role : Role)
  | roleRevoked (group : GroupId) (member : MemberId)
  /-- The member left every group. -/
  | memberRemoved (member : MemberId)
  deriving DecidableEq

namespace Change

/-! ## Tags -/

inductive Tag where
  | deviceConnected
  | keyRotated
  | deviceRemoved
  | deviceReassigned
  | profileAssigned
  | profileRemoved
  | groupAssigned
  | groupRemoved
  | roleAssigned
  | roleRevoked
  | memberRemoved
  deriving DecidableEq, Repr

namespace Tag

def all : List Tag := [deviceConnected, keyRotated, deviceRemoved, deviceReassigned,
  profileAssigned, profileRemoved, groupAssigned, groupRemoved, roleAssigned, roleRevoked,
  memberRemoved]

/-- The name in documents and in the journal. -/
def name : Tag → String
  | deviceConnected => "device_connected"
  | keyRotated => "key_rotated"
  | deviceRemoved => "device_removed"
  | deviceReassigned => "device_reassigned"
  | profileAssigned => "profile_assigned"
  | profileRemoved => "profile_removed"
  | groupAssigned => "group_assigned"
  | groupRemoved => "group_removed"
  | roleAssigned => "role_assigned"
  | roleRevoked => "role_revoked"
  | memberRemoved => "member_removed"

/-- The name in messages about the length of an array. -/
def label : Tag → String
  | deviceConnected => "DeviceConnected"
  | keyRotated => "KeyRotated"
  | deviceRemoved => "DeviceRemoved"
  | deviceReassigned => "DeviceReassigned"
  | profileAssigned => "ProfileAssigned"
  | profileRemoved => "ProfileRemoved"
  | groupAssigned => "GroupAssigned"
  | groupRemoved => "GroupRemoved"
  | roleAssigned => "RoleAssigned"
  | roleRevoked => "RoleRevoked"
  | memberRemoved => "MemberRemoved"

end Tag

def tag : Change → Tag
  | .deviceConnected .. => .deviceConnected
  | .keyRotated .. => .keyRotated
  | .deviceRemoved .. => .deviceRemoved
  | .deviceReassigned .. => .deviceReassigned
  | .profileAssigned .. => .profileAssigned
  | .profileRemoved .. => .profileRemoved
  | .groupAssigned .. => .groupAssigned
  | .groupRemoved .. => .groupRemoved
  | .roleAssigned .. => .roleAssigned
  | .roleRevoked .. => .roleRevoked
  | .memberRemoved .. => .memberRemoved

/-! ## Fields -/

/-- The fields that changes have. All hold a text but `members`, which holds a list of them. -/
inductive Field where
  | key
  | device
  | profile
  | group
  | org
  | member
  | role
  | members
  deriving DecidableEq, Repr

def Field.name : Field → String
  | key => "key"
  | device => "device_id"
  | profile => "profile_id"
  | group => "group_id"
  | org => "org_id"
  | member => "member_id"
  | role => "role"
  | members => "members"

/-- The fields of a change in order. -/
def Tag.fields : Tag → List Field
  | deviceConnected => [.key, .device, .group]
  | keyRotated => [.device, .key]
  | deviceRemoved => [.device]
  | deviceReassigned => [.device, .group]
  | profileAssigned => [.profile, .group]
  | profileRemoved => [.profile]
  | groupAssigned => [.group, .org]
  | groupRemoved => [.group, .members]
  | roleAssigned => [.group, .member, .role]
  | roleRevoked => [.group, .member]
  | memberRemoved => [.member]

/-- The text of a field, empty where the change has no such field. -/
def text : Change → Field → String
  | .deviceConnected k _ _, .key => k.secret
  | .deviceConnected _ d _, .device => d.text
  | .deviceConnected _ _ g, .group => g.text
  | .keyRotated d _, .device => d.text
  | .keyRotated _ k, .key => k.secret
  | .deviceRemoved d, .device => d.text
  | .deviceReassigned d _, .device => d.text
  | .deviceReassigned _ g, .group => g.text
  | .profileAssigned p _, .profile => p.text
  | .profileAssigned _ g, .group => g.text
  | .profileRemoved p, .profile => p.text
  | .groupAssigned g _, .group => g.text
  | .groupAssigned _ o, .org => o.text
  | .groupRemoved g _, .group => g.text
  | .roleAssigned g _ _, .group => g.text
  | .roleAssigned _ m _, .member => m.text
  | .roleAssigned _ _ r, .role => r.text
  | .roleRevoked g _, .group => g.text
  | .roleRevoked _ m, .member => m.text
  | .memberRemoved m, .member => m.text
  | _, _ => ""

/-- The members that a change lists. -/
def members : Change → List String
  | .groupRemoved _ ms => ms.map (·.text)
  | _ => []

/-- The change with this tag whose fields hold these texts and which lists these members. -/
def Tag.change (t : Tag) (text : Field → String) (members : List String) : Change :=
  match t with
  | deviceConnected => .deviceConnected ⟨text .key⟩ ⟨text .device⟩ ⟨text .group⟩
  | keyRotated => .keyRotated ⟨text .device⟩ ⟨text .key⟩
  | deviceRemoved => .deviceRemoved ⟨text .device⟩
  | deviceReassigned => .deviceReassigned ⟨text .device⟩ ⟨text .group⟩
  | profileAssigned => .profileAssigned ⟨text .profile⟩ ⟨text .group⟩
  | profileRemoved => .profileRemoved ⟨text .profile⟩
  | groupAssigned => .groupAssigned ⟨text .group⟩ ⟨text .org⟩
  | groupRemoved => .groupRemoved ⟨text .group⟩ (members.map Id.mk)
  | roleAssigned => .roleAssigned ⟨text .group⟩ ⟨text .member⟩ ⟨text .role⟩
  | roleRevoked => .roleRevoked ⟨text .group⟩ ⟨text .member⟩
  | memberRemoved => .memberRemoved ⟨text .member⟩

/-- A change is its tag with its texts and its members. -/
theorem change_tag (c : Change) : c.tag.change c.text c.members = c := by
  cases c <;> simp [tag, Tag.change, text, members, Function.comp_def]

end Change

end AccessCache
