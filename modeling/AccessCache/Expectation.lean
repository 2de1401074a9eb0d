import AccessCache.Error
import AccessCache.Statistics

/-!
# Expectations

Checks of what caches answer and hold. A check that fails says what it found instead.
-/

namespace AccessCache

/-- An equality that failed, with the two values. -/
def unequal (what left right : String) : String :=
  "assertion `left == right` failed: " ++ what ++ "\n  left: " ++ left ++ "\n right: " ++ right

/-- The result of a lookup, for diagnostics. -/
def debugResult : Except CacheError String → String
  | .ok s => "Ok(" ++ Text.quoted s ++ ")"
  | .error e => "Err(" ++ e.debug ++ ")"

namespace Expect

def sameRelation (what : String) (found wanted : Relation) : Except String Unit :=
  if found = wanted then .ok () else .error (unequal what found.label wanted.label)

/-- The lookup missed, in the cache of this relation. -/
def notFound (r : Relation) : Except CacheError String → Except String Unit
  | .error (.notFound r' _) => sameRelation "Wrong relation kind in NotFound error" r' r
  | other => .error ("Expected NotFound error for " ++ r.name ++ ", got: " ++ debugResult other)

/-- The cache of this relation could not be used. -/
def unavailable (r : Relation) : Except CacheError String → Except String Unit
  | .error (.unavailable r' _) => sameRelation "Wrong relation kind in unavailable error" r' r
  | other =>
    .error ("Expected BackingStoreUnavailable for " ++ r.name ++ ", got: " ++ debugResult other)

/-- No cache holds an entry. -/
def empty : List (Relation × Statistics) → Except String Unit
  | [] => .ok ()
  | (r, s) :: rest =>
    if s.entries = 0 then empty rest
    else .error (unequal (r.name ++ " cache still holds entries") (toString s.entries) "0")

end Expect

end AccessCache
