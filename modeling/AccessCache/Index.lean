import Std.Data.ExtTreeMap
import Std.Data.ExtTreeSet

/-!
# Reverse indices

An index from values back to the keys that have them. A value without keys has no bucket, so two
indices with the same pairs are equal.
-/

namespace AccessCache

/-- For each `κ` a nonempty set of `ν`. -/
abbrev Index (κ ν : Type) [Ord κ] [Ord ν] [Std.TransOrd κ] [Std.TransOrd ν] :=
  Std.ExtTreeMap κ (Std.ExtTreeSet ν)

namespace Index

variable {κ ν : Type} [Ord κ] [Ord ν] [Std.TransOrd κ] [Std.TransOrd ν]

/-- The bucket of `k`, empty where there is none. -/
def bucket (i : Index κ ν) (k : κ) : Std.ExtTreeSet ν := i[k]?.getD ∅

/-- Adds `v` to the bucket of `k`. -/
def attach (i : Index κ ν) (k : κ) (v : ν) : Index κ ν := i.insert k ((i.bucket k).insert v)

/-- Takes `v` from the bucket of `k` and drops the bucket with its last member. -/
def detach (i : Index κ ν) (k : κ) (v : ν) : Index κ ν :=
  match i[k]? with
  | none => i
  | some b => if (b.erase v).isEmpty then i.erase k else i.insert k (b.erase v)

end Index

end AccessCache
