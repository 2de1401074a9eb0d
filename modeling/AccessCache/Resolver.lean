import AccessCache.Authority.Basic
import AccessCache.Cache.Basic

/-!
# Resolving requests

A request names a credential, and maybe a profile and a member. It is resolved along the chain of
relations, stage by stage. Each stage asks its cache first. What the cache does not hold the
authority is asked for, and the answer is written through; a cache that cannot be used is passed
by, without a write. The first stage that fails ends the walk.
-/

namespace AccessCache

structure AccessRequest where
  key : CredentialKey
  profile : Option ProfileId := none
  member : Option MemberId := none
  deriving DecidableEq

/-- The relations of a resolved request. -/
structure AccessContext where
  device : DeviceId
  group : GroupId
  org : OrgId
  /-- The profile that the request named. -/
  profile : Option ProfileId
  /-- The role of the member that the request named. -/
  role : Option Role
  /-- Whether every stage was answered by its cache. -/
  fromCache : Bool
  deriving DecidableEq

/-- Caches in front of an authority, on one state. -/
structure Resolver (σ : Type) where
  caches : Caches σ
  authority : Authority σ

namespace Resolver

variable {σ α : Type}

/-- A step of the walk. -/
abbrev Walk (σ : Type) := ExceptT AccessError (Act σ)

/-- The answer of the authority, which `absent` stands for where there is none. -/
def ask (question : Act σ (Answer α)) (absent : AccessError) : Walk σ α := do
  match ← question with
  | .error e => throw (.source e.reason)
  | .ok none => throw absent
  | .ok (some a) => pure a

/-- Writes an answer through; a failure is reported and goes no further. -/
def writeThrough (c : Call σ Unit) : Walk σ Unit := do
  match ← c.act with
  | .ok () => pure ()
  | .error e => (Act.report (.writeThroughFailed e) : Act σ Unit)

/-- One stage: the value, and whether the cache had it. -/
def stage (lookup : Call σ α) (question : Act σ (Answer α)) (save : α → Call σ Unit)
    (absent : AccessError) : Walk σ (α × Bool) := do
  match ← lookup.act with
  | .ok a => pure (a, true)
  | .error (.notFound _ _) =>
    let a ← ask question absent
    writeThrough (save a)
    pure (a, false)
  | .error e =>
    (Act.report (.cacheBypassed e) : Act σ Unit)
    let a ← ask question absent
    pure (a, false)

variable (r : Resolver σ)

/-! ## Stages -/

/-- The device that a key belongs to. -/
def identify (k : CredentialKey) : Walk σ (DeviceId × Bool) :=
  stage (r.caches.credentials.resolve k) (r.authority.deviceOfKey k)
    (r.caches.credentials.save k) (.unknown .credential CredentialKey.placeholder)

def deviceGroup (d : DeviceId) : Walk σ (GroupId × Bool) :=
  stage (r.caches.deviceGroups.resolve d) (r.authority.groupOfDevice d)
    (r.caches.deviceGroups.save d) (.unknown .deviceGroup d.text)

def profileGroup (p : ProfileId) : Walk σ (GroupId × Bool) :=
  stage (r.caches.profileGroups.resolve p) (r.authority.groupOfProfile p)
    (r.caches.profileGroups.save p) (.unknown .profileGroup p.text)

def groupOrg (g : GroupId) : Walk σ (OrgId × Bool) :=
  stage (r.caches.groupOrgs.resolve g) (r.authority.orgOfGroup g)
    (r.caches.groupOrgs.save g) (.unknown .groupOrg g.text)

def role (g : GroupId) (m : MemberId) : Walk σ (Role × Bool) :=
  stage (r.caches.roles.resolve ⟨g, m⟩) (r.authority.roleOf ⟨g, m⟩)
    (r.caches.roles.save ⟨g, m⟩) (.noRole g m)

/-! ## The walk -/

/-- A profile must belong to the group of the device. -/
def checkProfile (g : GroupId) : Option ProfileId → Walk σ Bool
  | none => pure true
  | some p => do
    let (pg, hit) ← r.profileGroup p
    if pg = g then pure hit else throw (.groupMismatch p pg g)

/-- The role of a member, where one is named. -/
def memberRole (g : GroupId) : Option MemberId → Walk σ (Option Role × Bool)
  | none => pure (none, true)
  | some m => do
    let (role, hit) ← r.role g m
    pure (some role, hit)

/-- Resolves a request: credential, device, profile if any, organisation, role if any. -/
def resolve (q : AccessRequest) : Walk σ AccessContext := do
  let (device, hit₁) ← r.identify q.key
  let (group, hit₂) ← r.deviceGroup device
  let hit₃ ← r.checkProfile group q.profile
  let (org, hit₄) ← r.groupOrg group
  let (role, hit₅) ← r.memberRole group q.member
  let fromCache := hit₁ && hit₂ && hit₃ && hit₄ && hit₅
  (Act.report (.accessResolved device group org fromCache) : Act σ Unit)
  pure ⟨device, group, org, q.profile, role, fromCache⟩

end Resolver

end AccessCache
