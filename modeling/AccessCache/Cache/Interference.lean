import AccessCache.Cache.Basic

/-!
# Interference

A plan of delays and faults for the calls on the caches, to see how their users cope. Each method
of each cache has a delay and at most one fault of its own. A fault lets some calls pass, then
fails some or all that follow; a call that it fails has no effect below.
-/

namespace AccessCache

variable {σ τ α : Type}

/-- What a fault reports. -/
inductive FaultKind where
  | unavailable (reason : String)
  | notFound (key : String)
  deriving DecidableEq

/-- A fault that passes `skip` calls and then fails `count`, or all where there is no count. -/
structure Fault where
  kind : FaultKind
  skip : Nat
  count : Option Nat
  deriving DecidableEq

namespace Fault

def error (r : Relation) (f : Fault) : CacheError :=
  match f.kind with
  | .unavailable reason => .unavailable r (.reported reason)
  | .notFound key => .notFound r key

/-- Whether the next call fails, and the fault after it. -/
def next (f : Fault) : Bool × Fault :=
  match f.skip, f.count with
  | n + 1, _ => (false, { f with skip := n })
  | 0, none => (true, f)
  | 0, some 0 => (false, f)
  | 0, some (n + 1) => (true, { f with count := some n })

end Fault

/-- The delay, in milliseconds, and the fault of each method. -/
structure Plan where
  delay : Relation → Method → Nat
  fault : Relation → Method → Option Fault

namespace Plan

/-- No delays and no faults. -/
def clear : Plan := ⟨fun _ _ => 0, fun _ _ => none⟩

/-- Sets the delay of the given methods of a cache. -/
def withDelay (p : Plan) (r : Relation) (ms : List Method) (delay : Nat) : Plan :=
  { p with delay := fun r' m => if r' = r ∧ m ∈ ms then delay else p.delay r' m }

/-- Sets the fault of each of the given methods of a cache. -/
def withFault (p : Plan) (r : Relation) (ms : List Method) (fault : Option Fault) : Plan :=
  { p with fault := fun r' m => if r' = r ∧ m ∈ ms then fault else p.fault r' m }

/-- The error that the next call meets, if any, and the plan after it. -/
def next (p : Plan) (r : Relation) (m : Method) : Option CacheError × Plan :=
  match p.fault r m with
  | none => (none, p)
  | some f =>
    (if f.next.1 then some (f.error r) else none, p.withFault r [m] (some f.next.2))

end Plan

/-- Puts the delay before a call and lets the fault decide whether it takes place. -/
def Call.interfered (plan : Part σ Plan) (r : Relation) (m : Method) (c : Call σ α) : Call σ α where
  wait s := (plan.get s).delay r m * 1000000 + c.wait s
  act s :=
    match (plan.get s).next r m with
    | (some e, p) => ⟨.error e, plan.set p s, []⟩
    | (none, p) => c.act (plan.set p s)

/-- Interferes with every call as planned. -/
def Layer.interfered (plan : Part σ Plan) : Layer σ σ where
  inner := id
  call r m c := c.interfered plan r m

end AccessCache
