import AccessCache.Act

/-!
# The authority

The owner of all relations, which is asked for what no cache holds. It may have no such relation,
and it may fail.
-/

namespace AccessCache

/-- Why the authority gave no answer. -/
structure AuthorityError where
  reason : String
  deriving DecidableEq

/-- An answer of the authority: a value, or nothing where it has no such relation. -/
abbrev Answer (α : Type) := Except AuthorityError (Option α)

/-- The questions to an authority on a state `σ`. -/
structure Authority (σ : Type) where
  deviceOfKey : CredentialKey → Act σ (Answer DeviceId)
  groupOfDevice : DeviceId → Act σ (Answer GroupId)
  groupOfProfile : ProfileId → Act σ (Answer GroupId)
  orgOfGroup : GroupId → Act σ (Answer OrgId)
  roleOf : RoleKey → Act σ (Answer Role)

end AccessCache
