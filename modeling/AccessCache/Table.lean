import AccessCache.Error
import Std.Data.ExtTreeSet

/-!
# Tables

The bare operations of each kind of cache on a state `τ` of entries, without counters, journal or
time. An operation that fails gives no state, so nothing has changed.
-/

namespace AccessCache

/-- A set of groups in ascending order. -/
abbrev GroupSet := Std.ExtTreeSet GroupId

/-- Orders in which to go through sets of groups, each group once. Every turn has an order of its
own, and so equal sets may be gone through differently. -/
structure Tour where
  list : Nat → GroupSet → List GroupId
  perm : ∀ turn groups, (list turn groups).Perm groups.toList

namespace Tour

def ascending : Tour := ⟨fun _ groups => groups.toList, fun _ _ => .refl _⟩

/-- The order of the turn that comes next. -/
def now (t : Tour) (groups : GroupSet) : List GroupId := t.list 0 groups

/-- What is left after so many turns. -/
def after (t : Tour) (turns : Nat) : Tour :=
  ⟨fun turn => t.list (turns + turn), fun turn => t.perm (turns + turn)⟩

theorem mem_now (t : Tour) {groups : GroupSet} {g : GroupId} : g ∈ t.now groups ↔ g ∈ groups :=
  (t.perm 0 groups).mem_iff.trans Std.ExtTreeSet.mem_toList

theorem after_after (t : Tour) (n m : Nat) : (t.after n).after m = t.after (n + m) := by
  simp only [after, Nat.add_assoc]

end Tour

/-- Keys and the device of each. -/
structure CredentialTable (τ : Type) where
  save : CredentialKey → DeviceId → τ → Except StoreError τ
  find : CredentialKey → τ → Except StoreError (Option DeviceId)
  /-- Removes every key of a device and says how many there were. -/
  remove : DeviceId → τ → Except StoreError (Nat × τ)
  size : τ → Nat

/-- Children of the noun `c`, each with one parent of the noun `p`. -/
structure LinkTable (τ : Type) (c p : Noun) where
  save : Id c → Id p → τ → Except StoreError τ
  find : Id c → τ → Except StoreError (Option (Id p))
  /-- Removes a link and says whether there was one. -/
  remove : Id c → τ → Except StoreError (Bool × τ)
  size : τ → Nat

/-- Pairs of a group and a member, and the role of each. -/
structure RoleTable (τ : Type) where
  save : RoleKey → Role → τ → Except StoreError τ
  find : RoleKey → τ → Except StoreError (Option Role)
  /-- Removes a role and says whether there was one. -/
  remove : RoleKey → τ → Except StoreError (Bool × τ)
  /-- The groups in which a member has a role. -/
  memberships : MemberId → τ → Except StoreError GroupSet
  size : τ → Nat

end AccessCache
