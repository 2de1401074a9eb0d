import AccessCache.Key
import AccessCache.Relation
import AccessCache.Duration

/-!
# Errors

Why an operation on a cache, on the store below it or on the whole chain of relations fails.
Errors say what happened; `message` says it in words. Only two things happen to a caller of a
cache: there is no such entry, or the store below cannot be used now.
-/

namespace AccessCache

/-! ## Stores -/

/-- Why a store on disk failed. -/
inductive StoreError where
  | environmentOpen (reason : String)
  | databaseOpen (name reason : String)
  | transaction (reason : String)
  | serialization (reason : String)
  | deserialization (reason : String)
  | task (reason : String)
  | io (reason : String)
  deriving DecidableEq

namespace StoreError

def message : StoreError → String
  | environmentOpen r => "Failed to open LMDB environment: " ++ r
  | databaseOpen n r => "Failed to open database " ++ n ++ ": " ++ r
  | transaction r => "Transaction error: " ++ r
  | serialization r => "Serialization error: " ++ r
  | deserialization r => "Deserialization error: " ++ r
  | task r => "Blocking task failed: " ++ r
  | io r => "I/O error: " ++ r

/-- A record that does not fit the store. -/
def full : StoreError := transaction "MDB_MAP_FULL: Environment mapsize limit reached"

end StoreError

/-! ## Caches -/

/-- The operations of a cache. -/
inductive Method where
  | save
  | resolve
  | remove
  | membershipsOf
  deriving DecidableEq, Repr

namespace Method

def all : List Method := [save, resolve, remove, membershipsOf]

def name : Method → String
  | save => "save"
  | resolve => "resolve"
  | remove => "remove"
  | membershipsOf => "memberships_of"

def ofName? (s : String) : Option Method := all.find? (·.name = s)

end Method

/-- Why a cache cannot be used. -/
inductive Outage where
  | store (e : StoreError)
  | late (method : Method) (deadline : Duration)
  | reported (reason : String)
  deriving DecidableEq

def Outage.message : Outage → String
  | store e => e.message
  | late m d => m.name ++ " exceeded deadline of " ++ d.text
  | reported r => r

/-- Why an operation on a cache fails. -/
inductive CacheError where
  /-- The cache has no entry; the authority may. -/
  | notFound (relation : Relation) (key : String)
  /-- The store below cannot be used. -/
  | unavailable (relation : Relation) (outage : Outage)
  deriving DecidableEq

namespace CacheError

def relation : CacheError → Relation
  | notFound r _ => r
  | unavailable r _ => r

def isNotFound : CacheError → Bool
  | notFound .. => true
  | unavailable .. => false

def isUnavailable (e : CacheError) : Bool := !e.isNotFound

def message : CacheError → String
  | notFound r k => "No cached " ++ r.name ++ " entry for " ++ k
  | unavailable r o => "Backing store for " ++ r.name ++ " unavailable: " ++ o.message

/-- The error with its fields, for diagnostics. -/
def debug : CacheError → String
  | notFound r k =>
    "NotFound \x7b kind: " ++ r.label ++ ", key: " ++ Text.quoted k ++ " \x7d"
  | unavailable r o =>
    "BackingStoreUnavailable \x7b kind: " ++ r.label ++ ", reason: " ++ Text.quoted o.message
      ++ " \x7d"

end CacheError

/-! ## The chain of relations -/

/-- Why a request is not resolved. -/
inductive AccessError where
  /-- Neither the cache nor the authority knows the relation. -/
  | unknown (relation : Relation) (key : String)
  | noRole (group : GroupId) (member : MemberId)
  /-- The profile belongs to another group than the device. -/
  | groupMismatch (profile : ProfileId) (profileGroup deviceGroup : GroupId)
  /-- The authority failed. -/
  | source (reason : String)
  deriving DecidableEq

def AccessError.message : AccessError → String
  | unknown r k => "Unknown " ++ r.name ++ " relation for " ++ k
  | noRole g m => "Member " ++ m.text ++ " has no role in group " ++ g.text
  | groupMismatch p pg dg =>
    "Profile " ++ p.text ++ " belongs to group " ++ pg.text ++ ", device belongs to " ++ dg.text
  | source r => "Authoritative store error: " ++ r

end AccessCache
