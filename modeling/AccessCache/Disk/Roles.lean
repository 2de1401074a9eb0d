import AccessCache.Disk.Record
import AccessCache.Table

/-!
# Roles on disk

One database holds the role of each pair, group first; the other holds the pairs, member first, so
that the groups of a member stand together. Both are written and removed together.
-/

namespace AccessCache.Disk

structure Roles where
  assignments : Database
  memberships : Database

namespace Roles

def empty : Roles := ⟨∅, ∅⟩

def save (capacity : Option Nat) (k : RoleKey) (role : Role) (t : Roles) :
    Except StoreError Roles := do
  let assignments ← t.assignments.put capacity k.byGroup (Record.encode ⟨k, role⟩)
  let memberships ← t.memberships.put capacity k.byMember (Record.encode ⟨k.member, k.group⟩)
  pure ⟨assignments, memberships⟩

def find (k : RoleKey) (t : Roles) : Except StoreError (Option Role) :=
  t.assignments.value? k.byGroup k

def remove (k : RoleKey) (t : Roles) : Bool × Roles :=
  (t.assignments.contains k.byGroup,
    ⟨t.assignments.erase k.byGroup, t.memberships.erase k.byMember⟩)

def groupsOf (m : MemberId) (t : Roles) : Except StoreError GroupSet := do
  let found : List (Bytes × Record MemberId GroupId) ←
    t.memberships.records (RoleKey.memberStart m)
  pure (.ofList ((found.filter (·.2.key = m)).map (·.2.value)))

def size (t : Roles) : Nat := t.assignments.size

end Roles

def roleTable (capacity : Option Nat) : RoleTable Roles where
  save := Roles.save capacity
  find := Roles.find
  remove k t := .ok (t.remove k)
  memberships := Roles.groupsOf
  size := Roles.size

end AccessCache.Disk
