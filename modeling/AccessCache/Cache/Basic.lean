import AccessCache.Act
import AccessCache.Statistics
import AccessCache.Table

/-!
# Caches

What a cache of each kind offers on a state `σ`, and the five caches together. A layer wraps every
call of a cache alike, whatever it is for: it may carry the call over to a larger state, bound its
time or interfere with it.
-/

namespace AccessCache

variable {σ τ : Type}

/-! ## Kinds of caches -/

/-- Devices by key. -/
structure CredentialCache (σ : Type) where
  save : CredentialKey → DeviceId → Call σ Unit
  resolve : CredentialKey → Call σ DeviceId
  /-- Removes every key of a device. -/
  remove : DeviceId → Call σ Unit
  statistics : σ → Statistics

/-- Parents of the noun `p` by children of the noun `c`. -/
structure LinkCache (σ : Type) (c p : Noun) where
  save : Id c → Id p → Call σ Unit
  resolve : Id c → Call σ (Id p)
  remove : Id c → Call σ Unit
  statistics : σ → Statistics

/-- Roles by group and member. -/
structure RoleCache (σ : Type) where
  save : RoleKey → Role → Call σ Unit
  resolve : RoleKey → Call σ Role
  remove : RoleKey → Call σ Unit
  membershipsOf : MemberId → Call σ GroupSet
  statistics : σ → Statistics

/-- The five caches on one state. -/
structure Caches (σ : Type) where
  credentials : CredentialCache σ
  deviceGroups : LinkCache σ .device .group
  profileGroups : LinkCache σ .profile .group
  groupOrgs : LinkCache σ .group .org
  roles : RoleCache σ

/-- The statistics of each cache, in the order of the relations. -/
def Caches.statistics (c : Caches σ) (s : σ) : List (Relation × Statistics) := [
  (.credential, c.credentials.statistics s),
  (.deviceGroup, c.deviceGroups.statistics s),
  (.profileGroup, c.profileGroups.statistics s),
  (.groupOrg, c.groupOrgs.statistics s),
  (.role, c.roles.statistics s)]

/-! ## Layers -/

/-- A way to make calls on the state `τ` of calls on the state `σ` inside it. -/
structure Layer (σ τ : Type) where
  inner : τ → σ
  call : {α : Type} → Relation → Method → Call σ α → Call τ α

/-- Carries calls over to a state of which theirs is a part. -/
def Layer.ofPart (p : Part τ σ) : Layer σ τ where
  inner := p.get
  call _ _ c := c.on p

def CredentialCache.through (l : Layer σ τ) (c : CredentialCache σ) : CredentialCache τ where
  save k d := l.call .credential .save (c.save k d)
  resolve k := l.call .credential .resolve (c.resolve k)
  remove d := l.call .credential .remove (c.remove d)
  statistics s := c.statistics (l.inner s)

def LinkCache.through {c p : Noun} (l : Layer σ τ) (r : Relation) (cache : LinkCache σ c p) :
    LinkCache τ c p where
  save child parent := l.call r .save (cache.save child parent)
  resolve child := l.call r .resolve (cache.resolve child)
  remove child := l.call r .remove (cache.remove child)
  statistics s := cache.statistics (l.inner s)

def RoleCache.through (l : Layer σ τ) (c : RoleCache σ) : RoleCache τ where
  save k role := l.call .role .save (c.save k role)
  resolve k := l.call .role .resolve (c.resolve k)
  remove k := l.call .role .remove (c.remove k)
  membershipsOf m := l.call .role .membershipsOf (c.membershipsOf m)
  statistics s := c.statistics (l.inner s)

/-- All five caches under one layer. -/
def Caches.through (l : Layer σ τ) (c : Caches σ) : Caches τ where
  credentials := c.credentials.through l
  deviceGroups := c.deviceGroups.through l .deviceGroup
  profileGroups := c.profileGroups.through l .profileGroup
  groupOrgs := c.groupOrgs.through l .groupOrg
  roles := c.roles.through l

end AccessCache
