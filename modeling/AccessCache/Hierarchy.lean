import AccessCache.Authority.Registry
import AccessCache.Cache.Basic
import AccessCache.Resolver

/-!
# Hierarchies

One complete chain of relations, from a credential to a role. It can be put into caches directly,
or registered with an authority and found through it.
-/

namespace AccessCache

structure Hierarchy where
  key : CredentialKey
  device : DeviceId
  profile : ProfileId
  group : GroupId
  org : OrgId
  member : MemberId
  role : Role
  deriving DecidableEq

namespace Hierarchy

variable {σ : Type} (h : Hierarchy)

def reference : Hierarchy where
  key := ⟨"key-A"⟩
  device := ⟨"dev-1"⟩
  profile := ⟨"prof-1"⟩
  group := ⟨"grp-9"⟩
  org := ⟨"org-3"⟩
  member := ⟨"user-7"⟩
  role := ⟨"editor"⟩

/-- Saves every relation, up to the first failure. -/
def seed (c : Caches σ) : ExceptT CacheError (Act σ) Unit := do
  (c.credentials.save h.key h.device).run
  (c.deviceGroups.save h.device h.group).run
  (c.profileGroups.save h.profile h.group).run
  (c.groupOrgs.save h.group h.org).run
  (c.roles.save ⟨h.group, h.member⟩ h.role).run

/-- Adds every relation to a registry. -/
def register (r : Registry) : Registry :=
  (((r.addDevice h.key h.device h.group).addProfile h.profile h.group).addGroup h.group h.org
    ).assignRole ⟨h.group, h.member⟩ h.role

/-- The request for the whole chain. -/
def request : AccessRequest := ⟨h.key, some h.profile, some h.member⟩

end Hierarchy

end AccessCache
