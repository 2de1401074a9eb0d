import AccessCache.Error

/-!
# The journal

What the library reports while it works. An entry holds what happened; its level, message and
fields follow from that. No entry has a place for a credential key.
-/

namespace AccessCache

inductive Level where
  | trace
  | debug
  | info
  | warn
  deriving DecidableEq

def Level.name : Level → String
  | trace => "TRACE"
  | debug => "DEBUG"
  | info => "INFO"
  | warn => "WARN"

/-- The value of a field. -/
inductive FieldValue where
  | text (s : String)
  | flag (b : Bool)
  | number (n : Nat)
  deriving DecidableEq

/-- One entry of the journal. -/
inductive Entry where
  | credentialSaved (device : DeviceId)
  | credentialLookedUp (hit : Bool)
  | credentialsRemoved (device : DeviceId) (count : Nat)
  | linkSaved (relation : Relation) (child parent : String)
  | linkLookedUp (relation : Relation) (child : String) (hit : Bool)
  | linkRemoved (relation : Relation) (child : String) (removed : Bool)
  | roleSaved (key : RoleKey) (role : Role)
  | roleLookedUp (key : RoleKey) (hit : Bool)
  | roleRemoved (key : RoleKey) (removed : Bool)
  | storeFailed (relation : Relation) (error : StoreError)
  | deadlineExceeded (relation : Relation) (method : Method) (deadline : Duration)
  | cacheBypassed (error : CacheError)
  | writeThroughFailed (error : CacheError)
  | accessResolved (device : DeviceId) (group : GroupId) (org : OrgId) (fromCache : Bool)
  | changeApplied (name : String)
  | memoryOpened
  | diskOpened (root : String) (maxSizeMb : UInt64) (deadline : Duration)
  deriving DecidableEq

namespace Entry

def level : Entry → Level
  | credentialLookedUp .. | linkLookedUp .. | roleLookedUp .. => .trace
  | storeFailed .. | deadlineExceeded .. | cacheBypassed .. | writeThroughFailed .. => .warn
  | memoryOpened | diskOpened .. => .info
  | _ => .debug

def message : Entry → String
  | credentialSaved .. => "saved credential"
  | credentialLookedUp .. => "credential lookup"
  | credentialsRemoved .. => "removed credentials"
  | linkSaved .. => "saved link"
  | linkLookedUp .. => "link lookup"
  | linkRemoved .. => "removed link"
  | roleSaved .. => "saved role"
  | roleLookedUp .. => "role lookup"
  | roleRemoved .. => "removed role"
  | storeFailed .. => "LMDB backing store unavailable"
  | deadlineExceeded .. => "cache operation exceeded deadline"
  | cacheBypassed .. => "cache bypassed"
  | writeThroughFailed .. => "write-through failed"
  | accessResolved .. => "resolved access"
  | changeApplied .. => "applying relation event"
  | memoryOpened => "using in-memory relation caches"
  | diskOpened .. => "opening LMDB relation caches"

def relationField (r : Relation) : String × FieldValue := ("kind", .text r.name)

def roleFields (k : RoleKey) : List (String × FieldValue) :=
  [relationField .role, ("group_id", .text k.group.text), ("member_id", .text k.member.text)]

def fields : Entry → List (String × FieldValue)
  | credentialSaved d => [relationField .credential, ("device_id", .text d.text)]
  | credentialLookedUp hit => [relationField .credential, ("hit", .flag hit)]
  | credentialsRemoved d n =>
    [relationField .credential, ("device_id", .text d.text), ("removed", .number n)]
  | linkSaved r c p => [relationField r, ("child", .text c), ("parent", .text p)]
  | linkLookedUp r c hit => [relationField r, ("child", .text c), ("hit", .flag hit)]
  | linkRemoved r c removed => [relationField r, ("child", .text c), ("removed", .flag removed)]
  | roleSaved k role => roleFields k ++ [("role", .text role.text)]
  | roleLookedUp k hit => roleFields k ++ [("hit", .flag hit)]
  | roleRemoved k removed => roleFields k ++ [("removed", .flag removed)]
  | storeFailed r e => [relationField r, ("error", .text e.message)]
  | deadlineExceeded r m d =>
    [relationField r, ("op", .text m.name), ("deadline_ms", .number (d.milliseconds % UInt64.size))]
  | cacheBypassed e => [relationField e.relation, ("error", .text e.message)]
  | writeThroughFailed e => [relationField e.relation, ("error", .text e.message)]
  | accessResolved d g o fromCache =>
    [("device_id", .text d.text), ("group_id", .text g.text), ("org_id", .text o.text),
      ("from_cache", .flag fromCache)]
  | changeApplied n => [("event", .text n)]
  | memoryOpened => []
  | diskOpened root n d =>
    [("path", .text root), ("size_mb", .number n.toNat), ("deadline", .text d.text)]

end Entry

end AccessCache
