/-!
# Relations

The five cached relations, from the credential at the leaf to the role of a member.
-/

namespace AccessCache

inductive Relation where
  /-- Credential to the device that presents it. -/
  | credential
  /-- Device to its group. -/
  | deviceGroup
  /-- Profile to its group. -/
  | profileGroup
  /-- Group to its organisation. -/
  | groupOrg
  /-- Group and member to the member's role. -/
  | role
  deriving DecidableEq, Repr

namespace Relation

def all : List Relation := [credential, deviceGroup, profileGroup, groupOrg, role]

/-- The name in messages and in the journal. -/
def name : Relation → String
  | credential => "credential"
  | deviceGroup => "device_group"
  | profileGroup => "profile_group"
  | groupOrg => "group_org"
  | role => "role"

/-- The name in documents and diagnostics. -/
def label : Relation → String
  | credential => "Credential"
  | deviceGroup => "DeviceGroup"
  | profileGroup => "ProfileGroup"
  | groupOrg => "GroupOrg"
  | role => "Role"

/-- The number that stands for the relation in binary data. -/
def toByte : Relation → UInt8
  | credential => 0
  | deviceGroup => 1
  | profileGroup => 2
  | groupOrg => 3
  | role => 4

def ofByte? : UInt8 → Option Relation
  | 0 => some credential
  | 1 => some deviceGroup
  | 2 => some profileGroup
  | 3 => some groupOrg
  | 4 => some role
  | _ => none

def ofName? (s : String) : Option Relation := all.find? (·.name = s)

@[simp] theorem ofByte?_toByte (r : Relation) : ofByte? r.toByte = some r := by cases r <;> rfl

end Relation

end AccessCache
