import AccessCache.Journal

/-!
# Acts

An act changes a state and writes into the journal on the way to its result. A call on a cache is
an act that waits for a while first; all of its effect is at one instant.
-/

namespace AccessCache

variable {σ τ α β : Type}

/-- What an act comes to. -/
structure Outcome (σ α : Type) where
  value : α
  state : σ
  journal : List Entry

/-- An act on a state. -/
def Act (σ α : Type) : Type := σ → Outcome σ α

namespace Act

/-- An act whose only effect is its result. -/
protected def pure (a : α) : Act σ α := fun s => ⟨a, s, []⟩

/-- One act after the other; the journals follow each other. -/
protected def bind (x : Act σ α) (f : α → Act σ β) : Act σ β := fun s =>
  let r := x s
  let r' := f r.value r.state
  ⟨r'.value, r'.state, r.journal ++ r'.journal⟩

instance : Monad (Act σ) where
  pure := Act.pure
  bind := Act.bind

theorem pure_apply (a : α) (s : σ) : (pure a : Act σ α) s = ⟨a, s, []⟩ := rfl

theorem bind_apply (x : Act σ α) (f : α → Act σ β) (s : σ) :
    (x >>= f) s =
      ⟨(f (x s).value (x s).state).value, (f (x s).value (x s).state).state,
        (x s).journal ++ (f (x s).value (x s).state).journal⟩ := rfl

instance : LawfulMonad (Act σ) := LawfulMonad.mk' _
  (fun x => by funext s; simp [Functor.map, Act.bind, Act.pure])
  (fun a f => by funext s; simp [pure_apply, bind_apply])
  (fun x f g => by funext s; simp [bind_apply])

/-- Writes one entry. -/
def report (e : Entry) : Act σ Unit := fun s => ⟨(), s, [e]⟩

/-- The state as it is. -/
def observe : Act σ σ := fun s => ⟨s, s, []⟩

def replace (s : σ) : Act σ Unit := fun _ => ⟨(), s, []⟩

end Act

/-! ## Parts of a state -/

/-- A part of a state that can be read and replaced. -/
structure Part (σ τ : Type) where
  get : σ → τ
  set : τ → σ → σ
  get_set : ∀ t s, get (set t s) = t := by intros; rfl
  set_get : ∀ s, set (get s) s = s := by intros; rfl
  set_set : ∀ t u s, set t (set u s) = set t s := by intros; rfl

namespace Part

/-- A part of a part. -/
def comp (q : Part τ β) (p : Part σ τ) : Part σ β where
  get s := q.get (p.get s)
  set t s := p.set (q.set t (p.get s)) s
  get_set := by simp [p.get_set, q.get_set]
  set_get := by simp [p.set_get, q.set_get]
  set_set := by simp [p.get_set, p.set_set, q.set_set]

end Part

/-- An act on a part leaves the rest alone. -/
def Act.on (p : Part σ τ) (x : Act τ α) : Act σ α := fun s =>
  let r := x (p.get s)
  ⟨r.value, p.set r.state s, r.journal⟩

/-! ## Calls -/

/-- A call on a cache: how long it waits, in nanoseconds, and what it does then. -/
structure Call (σ α : Type) where
  wait : σ → Nat
  act : Act σ (Except CacheError α)

namespace Call

/-- A call that takes no time. -/
def now (x : Act σ (Except CacheError α)) : Call σ α := ⟨fun _ => 0, x⟩

/-- The call as a step that may fail. -/
def run (c : Call σ α) : ExceptT CacheError (Act σ) α := ExceptT.mk c.act

/-- A call on a part. -/
def on (p : Part σ τ) (c : Call τ α) : Call σ α := ⟨fun s => c.wait (p.get s), c.act.on p⟩

end Call

end AccessCache
