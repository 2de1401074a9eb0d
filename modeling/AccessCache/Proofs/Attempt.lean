import AccessCache.Proofs.Exchange
import AccessCache.Proofs.Steady

/-!
# Attempts

Which calls an attempt at a change makes, and where it stops. The calls of a change follow from the
change and, where a member leaves, from the groups that the caches answer (`Change.Tried`); the
first that fails is the last. Over calls that may fail as they please, but without effect, the
tables are then those that the edits that took place lead to (`Attempts.apply`).
-/

namespace AccessCache

variable {σ β α : Type}

/-! ## Attempts -/

/-- The edit that took place. -/
def Exchange.done? : Exchange → Option Edit
  | edit e (.ok _) => some e
  | _ => none

/-- An attempt at edits one after the other, up to the first that fails. -/
inductive Edit.Tried : List Edit → List Exchange → Except CacheError Unit → Prop
  | nil : Tried [] [] (.ok ())
  | failed {e es} (err) : Tried (e :: es) [.edit e (.error err)] (.error err)
  | next {e es xs r} : Tried es xs r → Tried (e :: es) (.edit e (.ok ()) :: xs) r

/-- An attempt at a change. Where a member leaves, the caches are asked for the groups first. -/
inductive Change.Tried (tour : Tour) : Change → List Exchange → Except CacheError Unit → Prop
  | direct {x xs r} : x.tag ≠ .memberRemoved → Edit.Tried x.direct xs r → Tried tour x xs r
  | member {m gs xs r} :
      Edit.Tried ((tour.now gs).map fun g => .remove (.role ⟨g, m⟩)) xs r →
        Tried tour (.memberRemoved m) (.memberships m (.ok gs) :: xs) r
  | unanswered {m} (err) : Tried tour (.memberRemoved m) [.memberships m (.error err)] (.error err)

/-- All calls succeeded, or the first that failed was the last, and its error is the result. -/
def Stops (xs : List Exchange) (r : Except CacheError Unit) : Prop :=
  (r = .ok () ∧ ∀ x ∈ xs, x.error? = none) ∨
    ∃ before x err, xs = before ++ [x] ∧ (∀ y ∈ before, y.error? = none) ∧
      x.error? = some err ∧ r = .error err

theorem Stops.cons {x : Exchange} {xs : List Exchange} {r : Except CacheError Unit}
    (hx : x.error? = none) (h : Stops xs r) : Stops (x :: xs) r := by
  rcases h with ⟨hr, hxs⟩ | ⟨before, y, err, rfl, hbefore, hy, hr⟩
  · exact .inl ⟨hr, List.forall_mem_cons.mpr ⟨hx, hxs⟩⟩
  · exact .inr ⟨x :: before, y, err, rfl, List.forall_mem_cons.mpr ⟨hx, hbefore⟩, hy, hr⟩

theorem Stops.singleton {x : Exchange} {err : CacheError} (h : x.error? = some err) :
    Stops [x] (.error err) :=
  .inr ⟨[], x, err, rfl, List.forall_mem_nil _, h, rfl⟩

namespace Edit.Tried

variable {es : List Edit} {xs : List Exchange}

theorem stops {r : Except CacheError Unit} (h : Edit.Tried es xs r) : Stops xs r := by
  induction h with
  | nil => exact .inl ⟨rfl, List.forall_mem_nil _⟩
  | failed err => exact .singleton rfl
  | next _ ih => exact ih.cons rfl

/-- What took place comes before what failed. -/
theorem done_of_error {err : CacheError} (h : Edit.Tried es xs (.error err)) :
    ∃ e after, es = xs.filterMap Exchange.done? ++ e :: after := by
  generalize hr : Except.error err = r at h
  induction h with
  | nil => cases hr
  | @failed e es _ => exact ⟨e, es, rfl⟩
  | @next e es xs r _ ih =>
    obtain ⟨e', after, heq⟩ := ih hr
    exact ⟨e', after, congrArg (e :: ·) heq⟩

end Edit.Tried

namespace Change

variable {tour : Tour} {x : Change} {xs : List Exchange}

theorem Tried.stops {r : Except CacheError Unit} (h : x.Tried tour xs r) : Stops xs r := by
  cases h with
  | direct _ h => exact h.stops
  | member h => exact h.stops.cons rfl
  | unanswered err => exact .singleton rfl

/-- The change takes something back. -/
def revokes : Change → Bool
  | .keyRotated .. => true
  | .deviceRemoved .. => true
  | .profileRemoved .. => true
  | .groupRemoved .. => true
  | .roleRevoked .. => true
  | .memberRemoved .. => true
  | _ => false

/-- What a change takes back goes before what it grants. -/
theorem removal_of_mem_dropLast (hx : x.revokes) {e : Edit} (he : e ∈ x.direct.dropLast) :
    ∃ y, e = .remove y := by
  cases x with
  | keyRotated d k => exact ⟨_, List.mem_singleton.mp he⟩
  | deviceRemoved d => exact ⟨_, List.mem_singleton.mp he⟩
  | groupRemoved g ms =>
    rcases List.mem_cons.mp (List.dropLast_subset _ he) with rfl | he
    · exact ⟨_, rfl⟩
    · obtain ⟨m, _, rfl⟩ := List.mem_map.mp he
      exact ⟨_, rfl⟩
  | profileRemoved p => cases he
  | roleRevoked g m => cases he
  | memberRemoved m => cases he
  | _ => cases hx

/-- A change that takes something back and is cut short has removed entries only. -/
theorem Tried.removals {err : CacheError} (h : x.Tried tour xs (.error err)) (hx : x.revokes) :
    ∀ e ∈ xs.filterMap Exchange.done?, ∃ y, e = .remove y := by
  intro e he
  cases h with
  | direct _ h =>
    obtain ⟨e', after, heq⟩ := h.done_of_error
    refine removal_of_mem_dropLast hx ?_
    rw [heq, List.dropLast_append_cons]
    exact List.mem_append_left _ he
  | @member m gs xs _ h =>
    obtain ⟨e', after, heq⟩ := h.done_of_error
    have hmem : e ∈ (tour.now gs).map fun g => Edit.remove (.role ⟨g, m⟩) :=
      heq ▸ List.mem_append_left _ he
    obtain ⟨g, _, rfl⟩ := List.mem_map.mp hmem
    exact ⟨_, rfl⟩
  | unanswered err => cases he

end Change

/-! ## Calls that may fail -/

/-- Each call fails and leaves the tables alone, or acts on them as the other does by itself. -/
def Call.Over (tables : σ → β) (x : Call σ α) (y : Call β α) : Prop :=
  ∀ s, (∃ err, (x.act s).value = .error err ∧ tables (x.act s).state = tables s) ∨
    (x.act s).value = (y.act (tables s)).value ∧
      tables (x.act s).state = (y.act (tables s)).state

/-- Caches whose calls may fail as they please, but without effect. -/
structure Caches.Over (c : Caches σ) (base : Caches β) (tables : σ → β) : Prop where
  edit : ∀ e, (c.edit e).Over tables (base.edit e)
  memberships : ∀ m, (c.roles.membershipsOf m).Over tables (base.roles.membershipsOf m)

/-- Edits one after the other, up to the first that fails. -/
def Caches.editAll (c : Caches σ) : List Edit → ExceptT CacheError (Act σ) Unit
  | [] => pure ()
  | e :: es => do
    (c.edit e).run
    c.editAll es

namespace Invalidator

theorem removeRoles_eq (i : Invalidator σ) (ks : List RoleKey) :
    i.removeRoles ks = i.caches.editAll (ks.map fun k => .remove (.role k)) := by
  induction ks with
  | nil => rfl
  | cons k ks ih =>
    rw [removeRoles, ih]
    rfl

/-- All changes but the leave of a member are fixed edits. -/
theorem calls_eq (i : Invalidator σ) {x : Change} (hx : x.tag ≠ .memberRemoved) :
    i.calls x = i.caches.editAll x.direct := by
  have one : ∀ e, i.caches.editAll [e] = (i.caches.edit e).run := fun e =>
    bind_pure_unit (x := (i.caches.edit e).run)
  have two : ∀ e e', i.caches.editAll [e, e'] =
      (i.caches.edit e).run >>= fun _ => (i.caches.edit e').run := fun e e' =>
    congrArg (fun y => (i.caches.edit e).run >>= fun _ => y) (one e')
  symm
  cases x with
  | deviceConnected k d g => exact two _ _
  | keyRotated d k => exact two _ _
  | deviceRemoved d => exact two _ _
  | groupRemoved g ms =>
    rw [calls, removeRoles_eq, List.map_map]
    rfl
  | memberRemoved m => exact absurd rfl hx
  | _ => exact one _

theorem calls_memberRemoved (i : Invalidator σ) (m : MemberId) :
    i.calls (.memberRemoved m) = (i.caches.roles.membershipsOf m).run >>= fun gs =>
      i.caches.editAll ((i.tour.now gs).map fun g => .remove (.role ⟨g, m⟩)) := by
  simp only [calls, removeRoles_eq, List.map_map]
  rfl

end Invalidator

/-! ## Attempts over such calls -/

section Over

variable {c : Caches σ} {base : Caches β} {tables : σ → β}

/-- The step adds exchanges that the protocol allows, and what it makes of the tables is what the
edits among them do that took place. -/
def Attempts (base : Caches β) (tables : σ → β) (x : ExceptT CacheError (Act (Recorded σ)) α)
    (P : Protocol CacheError α) : Prop :=
  ∀ s, ∃ xs, (x.run s).state.exchanges = s.exchanges ++ xs ∧ P xs (x.run s).value ∧
    tables (x.run s).state.state = base.after (xs.filterMap Exchange.done?) (tables s.state)

namespace Attempts

variable {x : ExceptT CacheError (Act (Recorded σ)) α} {P P' : Protocol CacheError α}

theorem mono (h : Attempts base tables x P) (hP : ∀ {xs r}, P xs r → P' xs r) :
    Attempts base tables x P' := by
  intro s
  obtain ⟨xs, hxs, hr, htables⟩ := h s
  exact ⟨xs, hxs, hP hr, htables⟩

theorem bind {γ : Type} {f : α → ExceptT CacheError (Act (Recorded σ)) γ}
    {Q : α → Protocol CacheError γ} (h : Attempts base tables x P)
    (hf : ∀ a, Attempts base tables (f a) (Q a)) : Attempts base tables (x >>= f) (P.Then Q) := by
  intro s
  obtain ⟨xs, hxs, hP, htables⟩ := h s
  cases hv : (x.run s).value with
  | error err =>
    obtain ⟨hvalue, hstate⟩ := run_bind_of_error hv f
    rw [hv] at hP
    rw [hvalue, hstate]
    exact ⟨xs, hxs, .failed hP, htables⟩
  | ok a =>
    obtain ⟨hvalue, hstate⟩ := run_bind_of_ok hv f
    obtain ⟨ys, hys, hQ, htables'⟩ := hf a (x.run s).state
    rw [hv] at hP
    rw [hvalue, hstate]
    refine ⟨xs ++ ys, ?_, .next hP hQ, ?_⟩
    · rw [hys, hxs, List.append_assoc]
    · rw [htables', htables, List.filterMap_append]
      exact List.foldl_append.symm

variable (hb : base.Steady) (hc : c.Over base tables)

include hb hc

theorem edit (e : Edit) :
    Attempts base tables (c.recorded.edit e).run fun xs r => xs = [.edit e r] := by
  have hcall : (c.recorded.edit e).run = (c.edit e).act.recorded (.edit e) :=
    congrArg Call.act (c.edit_recorded e)
  rw [hcall]
  intro s
  refine ⟨_, rfl, rfl, ?_⟩
  show tables ((c.edit e).act s.state).state = base.after
    (List.filterMap Exchange.done? [Exchange.edit e ((c.edit e).act s.state).value]) _
  rcases hc.edit e s.state with ⟨err, hfail, hsame⟩ | ⟨hvalue, hstate⟩
  · rw [hfail]
    exact hsame
  · rw [hvalue, hstate]
    cases hbase : ((base.edit e).act (tables s.state)).value with
    | ok _ => rfl
    | error err => exact hb.failed hbase

theorem memberships (m : MemberId) :
    Attempts base tables (c.recorded.roles.membershipsOf m).run
      fun xs r => xs = [.memberships m r] := by
  intro s
  refine ⟨_, rfl, rfl, ?_⟩
  rcases hc.memberships m s.state with ⟨_, _, hsame⟩ | ⟨_, hstate⟩
  · exact hsame
  · exact hstate.trans (hb.memberships m _)

theorem editAll (es : List Edit) :
    Attempts base tables (c.recorded.editAll es) (Edit.Tried es) := by
  induction es with
  | nil => exact fun s => ⟨[], (List.append_nil _).symm, .nil, rfl⟩
  | cons e es ih =>
    refine ((edit hb hc e).bind fun _ => ih).mono ?_
    rintro _ _ (⟨rfl⟩ | ⟨rfl, htried⟩)
    · exact .failed _
    · exact .next htried

/-- What a change calls for. -/
theorem calls (tour : Tour) (x : Change) :
    Attempts base tables ((⟨c.recorded, tour⟩ : Invalidator (Recorded σ)).calls x)
      (x.Tried tour) := by
  by_cases hx : x.tag = .memberRemoved
  · cases x with
    | memberRemoved m =>
      rw [Invalidator.calls_memberRemoved]
      refine ((memberships hb hc m).bind fun gs => editAll hb hc _).mono ?_
      rintro _ _ (⟨rfl⟩ | ⟨rfl, htried⟩)
      · exact .unanswered _
      · exact .member htried
    | _ => cases hx
  · rw [Invalidator.calls_eq _ hx]
    exact (editAll hb hc x.direct).mono (.direct hx)

/-- The report that comes first leaves everything alone. -/
theorem apply (tour : Tour) (x : Change) :
    Attempts base tables ((⟨c.recorded, tour⟩ : Invalidator (Recorded σ)).apply x)
      (x.Tried tour) :=
  calls hb hc tour x

end Attempts

variable (hb : base.Steady) (hc : c.Over base tables)

include hb hc

/-- The calls of an attempt, and what they make of the tables, can be read from what was written
down. -/
theorem Caches.Over.apply_tried (tour : Tour) (x : Change) (s : σ) :
    let i : Invalidator σ := ⟨c, tour⟩
    let o := (i.apply x).run s
    let xs := ((i.recorded.apply x).run ⟨s, []⟩).state.exchanges
    x.Tried tour xs o.value ∧
      tables o.state = base.after (xs.filterMap Exchange.done?) (tables s) := by
  intro i o xs
  obtain ⟨hvalue, _, hstate⟩ := i.apply_recorded x s
  obtain ⟨ys, hys, htried, htables⟩ := Attempts.apply hb hc tour x ⟨s, []⟩
  obtain rfl : xs = ys := hys
  exact ⟨hvalue ▸ htried, hstate ▸ htables⟩

end Over

/-! ## Several changes -/

namespace Invalidator

/-- Changes applied one after the other, each of them to the end. -/
inductive Applied : Invalidator σ → List Change → σ → σ → Prop
  | nil {i s} : Applied i [] s s
  | cons {i x xs s t} : ((i.apply x).run s).value = .ok () →
      Applied (i.after 1) xs ((i.apply x).run s).state t → Applied i (x :: xs) s t

/-- All changes are applied, or those before the first that fails; of those after it no call is
made. -/
theorem applyAll_applied (i : Invalidator σ) (xs : List Change) (s : σ) :
    let o := (i.applyAll xs).run s
    (o.value = .ok () ∧ i.Applied xs s o.state) ∨
      ∃ before x after t err, xs = before ++ x :: after ∧ i.Applied before s t ∧
        let failed := ((i.after before.length).apply x).run t
        failed.value = .error err ∧ o.value = .error err ∧ o.state = failed.state := by
  induction xs generalizing i s with
  | nil => exact .inl ⟨rfl, .nil⟩
  | cons x xs ih =>
    rw [applyAll]
    cases hv : ((i.apply x).run s).value with
    | error err =>
      obtain ⟨hvalue, hstate⟩ := run_bind_of_error hv fun _ => (i.after 1).applyAll xs
      exact .inr ⟨[], x, xs, s, err, rfl, .nil, i.after_zero.symm ▸ ⟨hv, hvalue, hstate⟩⟩
    | ok _ =>
      obtain ⟨hvalue, hstate⟩ := run_bind_of_ok hv fun _ => (i.after 1).applyAll xs
      intro o
      rw [show o.value = _ from hvalue, show o.state = _ from hstate]
      rcases ih (i.after 1) ((i.apply x).run s).state with
        ⟨hok, happlied⟩ | ⟨before, y, after, t, err, rfl, happlied, hfail⟩
      · exact .inl ⟨hok, .cons hv happlied⟩
      · refine .inr ⟨x :: before, y, after, t, err, rfl, .cons hv happlied, ?_⟩
        rw [List.length_cons, Nat.add_comm, ← after_after]
        exact hfail

end Invalidator

end AccessCache
