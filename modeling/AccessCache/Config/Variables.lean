import AccessCache.Config.Basic
import AccessCache.Text.Blank

/-!
# Configuration from variables

Four variables override the defaults. The storage and the two numbers are read without the blanks
around them; what cannot be read is reported as it was given. The settings are validated last.
-/

namespace AccessCache

namespace Variable

def storage : String := "RELCACHE_BACKEND"
def path : String := "RELCACHE_LMDB_PATH"
def maxSize : String := "RELCACHE_LMDB_MAX_SIZE_MB"
def timeout : String := "RELCACHE_OPERATION_TIMEOUT_MS"

end Variable

/-- The storage with this name, in any mixture of cases. Only the letters of ASCII are lowered: with
those beyond ASCII lowered as well it is the same storage (`ofName?_eq_some_iff_of_lowered`). -/
def StorageKind.ofName? (s : String) : Option StorageKind :=
  match String.ofList ((Text.trim s).map Char.toLower) with
  | "memory" => some .memory
  | "in_memory" => some .memory
  | "inmemory" => some .memory
  | "lmdb" => some .disk
  | _ => none

/-- The number below `limit` that `n` and the ASCII digits after it write. A number never falls by
another digit, so each step is held to the limit. -/
def digitsBelow? (limit : Nat) : Nat → List Char → Option Nat
  | n, [] => some n
  | n, c :: cs =>
    let n := n * 10 + (c.toNat - '0'.toNat)
    if c.isDigit ∧ n < limit then digitsBelow? limit n cs else none

/-- The number below `limit` that a nonempty string of ASCII digits writes. -/
def decimalBelow? (limit : Nat) (cs : List Char) : Option Nat :=
  if cs = [] then none else digitsBelow? limit 0 cs

/-- A number of 64 bits: digits, of which a plus may stand in front. -/
def word? (s : String) : Option UInt64 :=
  UInt64.ofNat <$> decimalBelow? UInt64.size (match Text.trim s with
    | '+' :: cs => cs
    | cs => cs)

namespace Config

/-- The value of a variable, or the default where it is not set. -/
def setting {α : Type} (lookup : String → Option String) (name : String) (default : α)
    (read : String → Option α) (reason : String) : Except ConfigError α :=
  match lookup name with
  | none => .ok default
  | some s => match read s with
    | some a => .ok a
    | none => .error (.invalidValue name s reason)

/-- The settings that the variables make. -/
def ofVariables (lookup : String → Option String) : Except ConfigError Config := do
  let storage ← setting lookup Variable.storage default.storage StorageKind.ofName?
    "expected memory or lmdb"
  let path := (lookup Variable.path).getD default.path
  let maxSizeMb ← setting lookup Variable.maxSize default.maxSizeMb word?
    "expected a non-negative integer"
  let timeout ← setting lookup Variable.timeout default.timeout
    (fun s => (word? s).map Duration.ofMilliseconds) "expected a non-negative integer"
  let config : Config := ⟨storage, path, maxSizeMb, timeout⟩
  config.validate
  pure config

end Config

end AccessCache
