import AccessCache.Index
import AccessCache.Table

/-!
# Roles in memory

Roles by group and member, and for each member the set of its groups.
-/

namespace AccessCache.Memory

/-- The role of each pair and the groups of each member. -/
structure Roles where
  roles : Std.ExtTreeMap RoleKey Role
  groups : Index MemberId GroupId

namespace Roles

def empty : Roles := ⟨∅, ∅⟩

def find (k : RoleKey) (t : Roles) : Option Role := t.roles[k]?

def save (k : RoleKey) (role : Role) (t : Roles) : Roles where
  roles := t.roles.insert k role
  groups := t.groups.attach k.member k.group

def remove (k : RoleKey) (t : Roles) : Bool × Roles :=
  if t.roles.contains k then (true, ⟨t.roles.erase k, t.groups.detach k.member k.group⟩)
  else (false, t)

def memberships (m : MemberId) (t : Roles) : GroupSet := t.groups.bucket m

def size (t : Roles) : Nat := t.roles.size

end Roles

/-- Tables in memory never fail. -/
def roleTable : RoleTable Roles where
  save k role t := .ok (t.save k role)
  find k t := .ok (t.find k)
  remove k t := .ok (t.remove k)
  memberships m t := .ok (t.memberships m)
  size := Roles.size

end AccessCache.Memory
