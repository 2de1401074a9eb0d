import AccessCache.Duration
import AccessCache.Path

/-!
# Configuration

Where the caches keep their entries, how large they may grow and how long an operation may take.
`validate` names the first setting that no store can work with.
-/

namespace AccessCache

/-- Where the caches keep their entries. -/
inductive StorageKind where
  | memory
  | disk
  deriving DecidableEq, Repr

/-- The settings shared by every cache. -/
structure Config where
  storage : StorageKind
  /-- The directory of the stores on disk. -/
  path : String
  /-- The size of each store on disk, in units of `2 ^ 20` bytes. -/
  maxSizeMb : UInt64
  /-- The deadline of every operation on disk. -/
  timeout : Duration
  deriving DecidableEq

/-- Why settings are refused. -/
inductive ConfigError where
  | missingRequired (field : String)
  | invalidValue (field value reason : String)
  deriving DecidableEq

def ConfigError.message : ConfigError → String
  | missingRequired f => "Missing required configuration field: " ++ f
  | invalidValue f v r => "Invalid value for " ++ f ++ ": " ++ v ++ " - " ++ r

namespace Config

/-- The settings of a single process that keeps everything in memory. -/
def default : Config := ⟨.memory, "./data/relcache", 64, .ofMilliseconds 250⟩

/-- Two configurations agree when they say the same; their paths may be spelled differently. -/
structure Agree (c d : Config) : Prop where
  storage : c.storage = d.storage
  path : Path.Agree c.path d.path
  maxSizeMb : c.maxSizeMb = d.maxSizeMb
  timeout : c.timeout = d.timeout

theorem agree_iff {c d : Config} : c.Agree d ↔ c.storage = d.storage ∧ Path.Agree c.path d.path ∧
    c.maxSizeMb = d.maxSizeMb ∧ c.timeout = d.timeout :=
  ⟨fun ⟨h₁, h₂, h₃, h₄⟩ => ⟨h₁, h₂, h₃, h₄⟩, fun ⟨h₁, h₂, h₃, h₄⟩ => ⟨h₁, h₂, h₃, h₄⟩⟩

instance (c d : Config) : Decidable (c.Agree d) := decidable_of_iff' _ agree_iff

def isDefault (c : Config) : Bool := decide (c.Agree default)

/-- Refuses a deadline of zero and, on disk, an empty path and an empty store, in this order. -/
def validate (c : Config) : Except ConfigError Unit :=
  if c.timeout.isZero then
    .error (.invalidValue "operation_timeout" "0" "deadline must be positive")
  else match c.storage with
    | .memory => .ok ()
    | .disk =>
      if c.path = "" then .error (.missingRequired "lmdb_path")
      else if c.maxSizeMb = 0 then
        .error (.invalidValue "lmdb_max_size_mb" "0" "map size must be positive")
      else .ok ()

end Config

end AccessCache
