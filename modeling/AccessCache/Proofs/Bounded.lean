import AccessCache.Proofs.Exchange
import AccessCache.Proofs.Session.World

/-!
# Calls under a deadline

Calls that reach the caches after a delay, each of its own, with a deadline before the delay. A
call in time is answered as if neither were there; a late one is refused and leaves nothing behind
(`Invocation.act_behind`). A run is then the run of the calls in time by themselves, among which
the late calls stand without effect (`Caches.bounded_transparent`).
-/

namespace AccessCache

variable {σ τ α : Type}

/-! ## Delays -/

/-- The call, reaching the cache `n` nanoseconds later. -/
def Call.delayed (n : Nat) (c : Call σ α) : Call σ α := ⟨fun s => n + c.wait s, c.act⟩

/-- Delays every call. -/
def Layer.delayed (n : Nat) : Layer σ σ where
  inner := id
  call _ _ c := c.delayed n

/-- The caches behind a deadline and a delay. -/
def Caches.behind (deadline : Duration) (n : Nat) (c : Caches σ) : Caches σ :=
  (c.through (.delayed n)).bounded deadline

/-- Of a call that does not wait itself, the deadline sees the delay alone. -/
theorem Call.delayed_bounded_act {c : Call σ α} (hc : ∀ s, c.wait s = 0) (deadline : Duration)
    (r : Relation) (m : Method) (n : Nat) (s : σ) :
    ((c.delayed n).bounded deadline r m).act s =
      if deadline.nanoseconds < n then late deadline r m s else c.act s := by
  have hwait : (c.delayed n).wait s = n := congrArg (n + ·) (hc s)
  by_cases hlate : deadline.nanoseconds < n
  · rw [if_pos hlate]
    exact bounded_act_of_lt (hwait.symm ▸ hlate)
  · rw [if_neg hlate]
    exact bounded_act_of_le (hwait.symm ▸ Nat.not_lt.mp hlate)

namespace Caches

variable (l : Layer σ τ) (c : Caches σ)

theorem lookup_through (q : Query) :
    (c.through l).lookup q = l.call q.relation .resolve (c.lookup q) := by
  cases q <;> rfl

theorem edit_through (e : Edit) :
    (c.through l).edit e = l.call e.relation e.method (c.edit e) := by
  rcases e with f | x
  · cases f <;> rfl
  · cases x <;> rfl

end Caches

/-! ## Calls -/

/-- A call on one of the caches, not yet answered. -/
inductive Invocation where
  | lookup (query : Query)
  | edit (edit : Edit)
  | memberships (member : MemberId)

namespace Invocation

/-- The relation of the cache that is called. -/
def relation : Invocation → Relation
  | lookup q => q.relation
  | edit e => e.relation
  | memberships _ => .role

def method : Invocation → Method
  | lookup _ => .resolve
  | edit e => e.method
  | memberships _ => .membershipsOf

/-- The call with the answer of the caches. -/
def act (c : Caches σ) : Invocation → Act σ Exchange
  | lookup q => .lookup q <$> (c.lookup q).act
  | edit e => .edit e <$> (c.edit e).act
  | memberships m => .memberships m <$> (c.roles.membershipsOf m).act

/-- The call, given up after the deadline. -/
def late (deadline : Duration) : Invocation → Exchange
  | lookup q => .lookup q (.error (.unavailable q.relation (.late .resolve deadline)))
  | edit e => .edit e (.error (.unavailable e.relation (.late e.method deadline)))
  | memberships m => .memberships m (.error (.unavailable .role (.late .membershipsOf deadline)))

/-- A call that was given up says that the cache of its relation is out of use. -/
theorem error?_late (deadline : Duration) (i : Invocation) :
    (i.late deadline).error? = some (.unavailable i.relation (.late i.method deadline)) := by
  cases i <;> rfl

/-- Calls one after the other. -/
def run (c : Caches σ) : List Invocation → Act σ (List Exchange)
  | [] => pure []
  | i :: is => do
    let x ← i.act c
    let xs ← run c is
    pure (x :: xs)

/-- A call of a cache behind a deadline and a delay, written down. -/
theorem map_delayed_bounded {call : Call σ α} (hc : ∀ s, call.wait s = 0)
    (note : Except CacheError α → Exchange) (deadline : Duration) (r : Relation) (m : Method)
    (n : Nat) (s : σ) : (note <$> ((call.delayed n).bounded deadline r m).act) s =
      if deadline.nanoseconds < n then
        ⟨note (.error (.unavailable r (.late m deadline))), s, [.deadlineExceeded r m deadline]⟩
      else (note <$> call.act) s := by
  have hact := Call.delayed_bounded_act hc deadline r m n s
  have hmap : ∀ x : Act σ (Except CacheError α),
      (note <$> x) s = ⟨note (x s).value, (x s).state, (x s).journal ++ []⟩ := fun _ => rfl
  rw [hmap, hact]
  split
  · rfl
  · rfl

/-- What a call behind a deadline and a delay comes to. -/
theorem act_behind {c : Caches σ} (hc : c.Prompt) (deadline : Duration) (n : Nat) (i : Invocation)
    (s : σ) : i.act (c.behind deadline n) s =
      if deadline.nanoseconds < n then
        ⟨i.late deadline, s, [.deadlineExceeded i.relation i.method deadline]⟩
      else i.act c s := by
  cases i with
  | lookup q =>
    rw [act, Caches.behind, Caches.bounded, Caches.lookup_through, Caches.lookup_through]
    exact map_delayed_bounded (hc.lookup q) (.lookup q) deadline _ _ n s
  | edit e =>
    rw [act, Caches.behind, Caches.bounded, Caches.edit_through, Caches.edit_through]
    exact map_delayed_bounded (hc.edit e) (.edit e) deadline _ _ n s
  | memberships m => exact map_delayed_bounded (hc.memberships m) (.memberships m) deadline _ _ n s

end Invocation

/-! ## Runs -/

/-- A call that reaches the caches after a delay in nanoseconds. -/
structure Timed where
  delay : Nat
  call : Invocation

namespace Timed

/-- The call takes place before the deadline, or just then. -/
def InTime (deadline : Duration) (t : Timed) : Prop := t.delay ≤ deadline.nanoseconds

instance (deadline : Duration) : DecidablePred (InTime deadline) := fun _ => Nat.decLe _ _

/-- Calls behind one deadline and delays of their own, each with its answer. -/
def run (deadline : Duration) (c : Caches σ) : List Timed → Act σ (List (Timed × Exchange))
  | [] => pure []
  | t :: ts => do
    let x ← t.call.act (c.behind deadline t.delay)
    let xs ← run deadline c ts
    pure ((t, x) :: xs)

variable {c : Caches σ} {deadline : Duration} {t : Timed}

theorem run_cons_of_inTime (hc : c.Prompt) (ht : t.InTime deadline) (ts : List Timed) (s : σ) :
    let o := t.call.act c s
    (run deadline c (t :: ts) s).value = (t, o.value) :: (run deadline c ts o.state).value ∧
      (run deadline c (t :: ts) s).state = (run deadline c ts o.state).state := by
  have hact := Invocation.act_behind hc deadline t.delay t.call s
  rw [if_neg (Nat.not_lt.mpr ht)] at hact
  simp only [run, Act.value_bind, Act.state_bind, hact]
  exact ⟨rfl, rfl⟩

theorem run_cons_of_late (hc : c.Prompt) (ht : ¬ t.InTime deadline) (ts : List Timed) (s : σ) :
    (run deadline c (t :: ts) s).value = (t, t.call.late deadline) :: (run deadline c ts s).value ∧
      (run deadline c (t :: ts) s).state = (run deadline c ts s).state := by
  have hact := Invocation.act_behind hc deadline t.delay t.call s
  rw [if_pos (Nat.not_le.mp ht)] at hact
  simp only [run, Act.value_bind, Act.state_bind, hact]
  exact ⟨rfl, rfl⟩

/-- A run of delayed calls beside a run of those in time by themselves. -/
structure Beside (deadline : Duration) (ts : List Timed) (o : Outcome σ (List (Timed × Exchange)))
    (alone : Outcome σ (List Exchange)) : Prop where
  state : o.state = alone.state
  calls : o.value.map Prod.fst = ts
  inTime : (o.value.filter (·.1.InTime deadline)).map Prod.snd = alone.value
  late : ∀ t x, (t, x) ∈ o.value → ¬ t.InTime deadline → x = t.call.late deadline

/-- The runs stay side by side: a call in time is made in both, a late one in neither. -/
theorem run_beside (hc : c.Prompt) (deadline : Duration) (ts : List Timed) (s : σ) :
    Beside deadline ts (run deadline c ts s)
      (Invocation.run c ((ts.filter (·.InTime deadline)).map call) s) := by
  induction ts generalizing s with
  | nil => exact ⟨rfl, rfl, rfl, fun _ _ h => nomatch h⟩
  | cons t ts ih =>
    by_cases ht : t.InTime deadline
    · obtain ⟨hvalue, hstate⟩ := run_cons_of_inTime hc ht ts s
      have hrest := ih (t.call.act c s).state
      rw [List.filter_cons_of_pos (by simpa using ht), List.map_cons]
      constructor
      · exact hstate.trans hrest.state
      · rw [hvalue, List.map_cons, hrest.calls]
      · rw [hvalue, List.filter_cons_of_pos (by simpa using ht), List.map_cons, hrest.inTime]
        rfl
      · rw [hvalue]
        intro t' x hx hlate
        rcases List.mem_cons.mp hx with heq | hx
        · cases heq
          exact absurd ht hlate
        · exact hrest.late t' x hx hlate
    · obtain ⟨hvalue, hstate⟩ := run_cons_of_late hc ht ts s
      have hrest := ih s
      rw [List.filter_cons_of_neg (by simpa using ht)]
      constructor
      · exact hstate.trans hrest.state
      · rw [hvalue, List.map_cons, hrest.calls]
      · rw [hvalue, List.filter_cons_of_neg (by simpa using ht), hrest.inTime]
      · rw [hvalue]
        intro t' x hx hlate
        rcases List.mem_cons.mp hx with heq | hx
        · cases heq
          rfl
        · exact hrest.late t' x hx hlate

end Timed

/-- Deadlines are transparent. Behind one, calls with delays of their own are all answered; those
in time are answered as in a run of them alone on the caches themselves, which also leaves the same
state and statistics; each of the others learns that the cache of its relation is out of use. -/
theorem Caches.bounded_transparent {c : Caches σ} (hc : c.Prompt) (deadline : Duration)
    (ts : List Timed) (s : σ) :
    let o := Timed.run deadline c ts s
    let alone := Invocation.run c ((ts.filter (·.InTime deadline)).map Timed.call) s
    o.state = alone.state ∧
      (∀ n, (c.behind deadline n).statistics o.state = c.statistics alone.state) ∧
      o.value.map Prod.fst = ts ∧
      (o.value.filter (·.1.InTime deadline)).map Prod.snd = alone.value ∧
      ∀ t x, (t, x) ∈ o.value → ¬ t.InTime deadline → x = t.call.late deadline ∧
        x.error? = some (.unavailable t.call.relation (.late t.call.method deadline)) := by
  intro o alone
  have h : Timed.Beside deadline ts o alone := Timed.run_beside hc deadline ts s
  refine ⟨h.state, fun n => ?_, h.calls, h.inTime, fun t x hx hlate => ?_⟩
  · rw [← h.state]
    rfl
  · obtain rfl := h.late t x hx hlate
    exact ⟨rfl, Invocation.error?_late deadline t.call⟩

/-- Of four calls the removal comes too late, so the lookup after it is still a hit. -/
theorem Caches.bounded_transparent_lateRemoval :
    let c := Memory.caches
    let deadline : Duration := .ofMilliseconds 1
    let k : Query := .deviceGroup ⟨"device"⟩
    let ts : List Timed := [⟨1000000, .edit (.save (.deviceGroup ⟨"device"⟩ ⟨"group"⟩))⟩,
      ⟨1000001, .edit (.remove (.deviceGroup ⟨"device"⟩))⟩, ⟨0, .lookup k⟩,
      ⟨7, .lookup (.deviceGroup ⟨"other"⟩)⟩]
    let o := Timed.run deadline c ts Memory.empty
    let alone := Invocation.run c ((ts.filter (·.InTime deadline)).map Timed.call) Memory.empty
    c.Prompt ∧ o.value.map (·.2.error?) = [none,
        some (.unavailable .deviceGroup (.late .remove deadline)), none,
        some (.notFound .deviceGroup "other")] ∧
      o.state = alone.state ∧
      (c.statisticsOf alone.state .deviceGroup) = ⟨1, 1, 1⟩ := by
  intro c deadline k ts o alone
  have hprompt : c.Prompt := Tables.prompt _ _ _
  have herrors : o.value.map (·.2.error?) = [none,
      some (.unavailable .deviceGroup (.late .remove deadline)), none,
      some (.notFound .deviceGroup "other")] := by decide
  obtain ⟨hstate, -⟩ := bounded_transparent hprompt deadline ts Memory.empty
  exact ⟨hprompt, herrors, hstate, by decide⟩

end AccessCache
