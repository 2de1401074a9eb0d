import AccessCache.Cache.Basic

/-!
# Deadlines

A bounded cache gives up a call that waits longer than the deadline. The call has no effect then,
and the cache counts as unusable; a call that waits exactly as long still takes place.
-/

namespace AccessCache

variable {σ α : Type}

/-- The outcome of a call that was given up. -/
def Call.late (deadline : Duration) (r : Relation) (m : Method) : Act σ (Except CacheError α) := do
  Act.report (.deadlineExceeded r m deadline)
  pure (.error (.unavailable r (.late m deadline)))

/-- The call, unless it waits longer than the deadline. -/
def Call.bounded (deadline : Duration) (r : Relation) (m : Method) (c : Call σ α) : Call σ α where
  wait s := min (c.wait s) deadline.nanoseconds
  act s := if deadline.nanoseconds < c.wait s then late deadline r m s else c.act s

/-- Bounds every call. -/
def Layer.bounded (deadline : Duration) : Layer σ σ where
  inner := id
  call r m c := c.bounded deadline r m

def Caches.bounded (deadline : Duration) (c : Caches σ) : Caches σ := c.through (.bounded deadline)

/-- Bounds every call where there is a deadline. -/
def Caches.within (deadline : Option Duration) (c : Caches σ) : Caches σ :=
  match deadline with
  | none => c
  | some d => c.bounded d

theorem Call.bounded_act_of_le {deadline : Duration} {r : Relation} {m : Method} {c : Call σ α}
    {s : σ} (h : c.wait s ≤ deadline.nanoseconds) : (c.bounded deadline r m).act s = c.act s :=
  if_neg (Nat.not_lt.mpr h)

theorem Call.bounded_act_of_lt {deadline : Duration} {r : Relation} {m : Method} {c : Call σ α}
    {s : σ} (h : deadline.nanoseconds < c.wait s) :
    (c.bounded deadline r m).act s = late deadline r m s :=
  if_pos h

end AccessCache
