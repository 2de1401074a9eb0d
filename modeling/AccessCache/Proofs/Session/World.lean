import AccessCache.Proofs.Regular
import AccessCache.Resolver
import AccessCache.Session.World

/-!
# Calls in worlds

Whatever the plan and the deadline, a call in a world either fails and leaves tables and registry
alone, or acts on the tables as it would by itself (`Call.act_inWorld`). Without interference it
does the latter, since calls on tables do not wait.
-/

namespace AccessCache

variable {β α : Type}

/-! ## Calls that do not wait -/

/-- A call that does not wait meets every deadline. -/
theorem Call.bounded_of_now {σ : Type} {d : Duration} {r : Relation} {m : Method} {c : Call σ α}
    (h : ∀ s, c.wait s = 0) : c.bounded d r m = c := by
  obtain ⟨wait, act⟩ := c
  obtain rfl : wait = fun _ => 0 := funext h
  simp [Call.bounded]

section Prompt

variable {σ : Type} (d : Duration)

theorem CredentialCache.through_bounded {c : CredentialCache σ}
    (hsave : ∀ k e s, (c.save k e).wait s = 0) (hresolve : ∀ k s, (c.resolve k).wait s = 0)
    (hremove : ∀ e s, (c.remove e).wait s = 0) : c.through (.bounded d) = c := by
  simp only [through, Layer.bounded, Call.bounded_of_now (hsave _ _),
    Call.bounded_of_now (hresolve _), Call.bounded_of_now (hremove _), id]

theorem LinkCache.through_bounded {n p : Noun} {c : LinkCache σ n p} (r : Relation)
    (hsave : ∀ k e s, (c.save k e).wait s = 0) (hresolve : ∀ k s, (c.resolve k).wait s = 0)
    (hremove : ∀ e s, (c.remove e).wait s = 0) : c.through (.bounded d) r = c := by
  simp only [through, Layer.bounded, Call.bounded_of_now (hsave _ _),
    Call.bounded_of_now (hresolve _), Call.bounded_of_now (hremove _), id]

theorem RoleCache.through_bounded {c : RoleCache σ}
    (hsave : ∀ k e s, (c.save k e).wait s = 0) (hresolve : ∀ k s, (c.resolve k).wait s = 0)
    (hremove : ∀ e s, (c.remove e).wait s = 0)
    (hmembers : ∀ m s, (c.membershipsOf m).wait s = 0) : c.through (.bounded d) = c := by
  simp only [through, Layer.bounded, Call.bounded_of_now (hsave _ _),
    Call.bounded_of_now (hresolve _), Call.bounded_of_now (hremove _),
    Call.bounded_of_now (hmembers _), id]

/-- Caches over tables meet every deadline. -/
theorem Tables.caches_within {C R : Type} {L : Noun → Noun → Type} (ct : CredentialTable C)
    (lt : (c p : Noun) → LinkTable (L c p) c p) (rt : RoleTable R) (deadline : Option Duration) :
    (caches ct lt rt).within deadline = caches ct lt rt := by
  cases deadline with
  | none => rfl
  | some d =>
    have hc := (caches ct lt rt).credentials.through_bounded d (fun _ _ _ => rfl) (fun _ _ => rfl)
      fun _ _ => rfl
    have hd := (caches ct lt rt).deviceGroups.through_bounded d .deviceGroup (fun _ _ _ => rfl)
      (fun _ _ => rfl) fun _ _ => rfl
    have hp := (caches ct lt rt).profileGroups.through_bounded d .profileGroup (fun _ _ _ => rfl)
      (fun _ _ => rfl) fun _ _ => rfl
    have ho := (caches ct lt rt).groupOrgs.through_bounded d .groupOrg (fun _ _ _ => rfl)
      (fun _ _ => rfl) fun _ _ => rfl
    have hr := (caches ct lt rt).roles.through_bounded d (fun _ _ _ => rfl) (fun _ _ => rfl)
      (fun _ _ => rfl) fun _ _ => rfl
    simp only [Caches.within, Caches.bounded, Caches.through]
    rw [hc, hd, hp, ho, hr]

theorem Disk.caches_within (capacity : Option Nat) (timeout : Option Duration) :
    (caches capacity).within timeout = caches capacity :=
  Tables.caches_within _ _ _ timeout

end Prompt

/-! ## One call -/

/-- A call behind interference, and behind a deadline where there is one. -/
def Call.inWorld (deadline : Option Duration) (r : Relation) (m : Method) (c : Call β α) :
    Call (World β) α :=
  match deadline with
  | none => (c.on World.tablesPart).interfered World.planPart r m
  | some d => ((c.on World.tablesPart).interfered World.planPart r m).bounded d r m

variable (deadline : Option Duration) (r : Relation) (m : Method)

theorem Call.act_interfered (c : Call β α) (w : World β) :
    ((c.on World.tablesPart).interfered World.planPart r m).act w = match w.plan.next r m with
      | (some e, p) => ⟨.error e, { w with plan := p }, []⟩
      | (none, p) => (c.on World.tablesPart).act { w with plan := p } := rfl

/-- A call comes too late, meets a fault of the plan, or acts on the tables. -/
theorem Call.act_inWorld_eq (c : Call β α) (w : World β) :
    let o := (c.inWorld deadline r m).act w
    (∃ d, o = Call.late d r m w) ∨
      (∃ err p, w.plan.next r m = (some err, p) ∧ o = ⟨.error err, { w with plan := p }, []⟩) ∨
      ∃ p, w.plan.next r m = (none, p) ∧
        o = (c.act.on World.tablesPart) { w with plan := p } := by
  intro o
  have hintime : o = ((c.on World.tablesPart).interfered World.planPart r m).act w →
      (∃ err p, w.plan.next r m = (some err, p) ∧ o = ⟨.error err, { w with plan := p }, []⟩) ∨
        ∃ p, w.plan.next r m = (none, p) ∧
          o = (c.act.on World.tablesPart) { w with plan := p } := by
    intro ho
    rw [ho, Call.act_interfered]
    rcases w.plan.next r m with ⟨_ | err, p⟩
    · exact .inr ⟨p, rfl, rfl⟩
    · exact .inl ⟨err, p, rfl, rfl⟩
  cases deadline with
  | none => exact .inr (hintime rfl)
  | some d =>
    by_cases hlate : d.nanoseconds < ((c.on World.tablesPart).interfered World.planPart r m).wait w
    · exact .inl ⟨d, Call.bounded_act_of_lt hlate⟩
    · exact .inr (hintime (Call.bounded_act_of_le (Nat.not_lt.mp hlate)))

/-- The same of the value and the state alone. -/
theorem Call.act_inWorld_cases (c : Call β α) (w : World β) :
    let o := (c.inWorld deadline r m).act w
    (∃ d, o.value = .error (.unavailable r (.late m d)) ∧ o.state = w) ∨
      (∃ err p, w.plan.next r m = (some err, p) ∧ o.value = .error err ∧
        o.state = { w with plan := p }) ∨
      ∃ p, w.plan.next r m = (none, p) ∧ o.value = (c.act w.tables).value ∧
        o.state = { w with tables := (c.act w.tables).state, plan := p } := by
  intro o
  rcases Call.act_inWorld_eq deadline r m c w with ⟨d, ho⟩ | ⟨err, p, hnext, ho⟩ | ⟨p, hnext, ho⟩
  · exact .inl ⟨d, congrArg Outcome.value ho, congrArg Outcome.state ho⟩
  · exact .inr (.inl ⟨err, p, hnext, congrArg Outcome.value ho, congrArg Outcome.state ho⟩)
  · exact .inr (.inr ⟨p, hnext, congrArg Outcome.value ho, congrArg Outcome.state ho⟩)

/-- A call fails outside the tables, or acts on them. -/
theorem Call.act_inWorld (c : Call β α) (w : World β) :
    (∃ err p, ((c.inWorld deadline r m).act w).value = .error err ∧
        ((c.inWorld deadline r m).act w).state = { w with plan := p }) ∨
      ∃ p, ((c.inWorld deadline r m).act w).value = (c.act w.tables).value ∧
        ((c.inWorld deadline r m).act w).state =
          { w with tables := (c.act w.tables).state, plan := p } := by
  rcases Call.act_inWorld_cases deadline r m c w with
    ⟨d, hvalue, hstate⟩ | ⟨err, p, _, hvalue, hstate⟩ | ⟨p, _, hvalue, hstate⟩
  · exact .inl ⟨_, w.plan, hvalue, hstate⟩
  · exact .inl ⟨err, p, hvalue, hstate⟩
  · exact .inr ⟨p, hvalue, hstate⟩

/-- The plan fails no call and keeps none waiting beyond the deadline. -/
structure Plan.Harmless (deadline : Option Duration) (p : Plan) : Prop where
  fault : ∀ r m, p.fault r m = none
  delay : ∀ d ∈ deadline, ∀ r m, p.delay r m * 1000000 ≤ d.nanoseconds

theorem Plan.harmless_clear : Plan.clear.Harmless deadline where
  fault _ _ := rfl
  delay d _ r m := by
    rw [show Plan.clear.delay r m = 0 from rfl, Nat.zero_mul]
    exact Nat.zero_le _

/-- Under a harmless plan a call that does not wait acts on the tables. -/
theorem Call.act_inWorld_harmless {c : Call β α} (hwait : ∀ s, c.wait s = 0) {w : World β}
    (hplan : w.plan.Harmless deadline) :
    ((c.inWorld deadline r m).act w).value = (c.act w.tables).value ∧
      ((c.inWorld deadline r m).act w).state = { w with tables := (c.act w.tables).state } := by
  have hact : ((c.on World.tablesPart).interfered World.planPart r m).act w =
      (c.on World.tablesPart).act w := by
    rw [Call.act_interfered, Plan.next, hplan.fault]
  cases deadline with
  | none => exact ⟨congrArg Outcome.value hact, congrArg Outcome.state hact⟩
  | some d =>
    have hle : ((c.on World.tablesPart).interfered World.planPart r m).wait w ≤ d.nanoseconds := by
      show (w.plan.delay r m * 1000000 + c.wait w.tables) ≤ d.nanoseconds
      rw [hwait, Nat.add_zero]
      exact hplan.delay d rfl r m
    simp only [Call.inWorld, Call.bounded_act_of_le hle]
    exact ⟨congrArg Outcome.value hact, congrArg Outcome.state hact⟩

/-- Without interference a call that does not wait acts on the tables. -/
theorem Call.act_inWorld_clear {c : Call β α} (hwait : ∀ s, c.wait s = 0) {w : World β}
    (hplan : w.plan = .clear) :
    ((c.inWorld deadline r m).act w).value = (c.act w.tables).value ∧
      ((c.inWorld deadline r m).act w).state = { w with tables := (c.act w.tables).state } :=
  act_inWorld_harmless deadline r m hwait (hplan ▸ Plan.harmless_clear deadline)

/-! ## The calls of caches -/

def Edit.relation : Edit → Relation
  | .save f => f.query.relation
  | .remove (.credentials _) => .credential
  | .remove (.deviceGroup _) => .deviceGroup
  | .remove (.profileGroup _) => .profileGroup
  | .remove (.groupOrg _) => .groupOrg
  | .remove (.role _) => .role

def Edit.method : Edit → Method
  | .save _ => .save
  | .remove _ => .remove

namespace Caches

variable (c : Caches β) {deadline}

theorem lookup_inWorld (q : Query) :
    (c.inWorld deadline).lookup q = (c.lookup q).inWorld deadline q.relation .resolve := by
  cases deadline <;> cases q <;> rfl

theorem edit_inWorld (e : Edit) :
    (c.inWorld deadline).edit e = (c.edit e).inWorld deadline e.relation e.method := by
  cases deadline <;> rcases e with f | x
  · cases f <;> rfl
  · cases x <;> rfl
  · cases f <;> rfl
  · cases x <;> rfl

theorem membershipsOf_inWorld (m : MemberId) :
    (c.inWorld deadline).roles.membershipsOf m =
      (c.roles.membershipsOf m).inWorld deadline .role .membershipsOf := by
  cases deadline <;> rfl

theorem statistics_inWorld (w : World β) :
    (c.inWorld deadline).statistics w = c.statistics w.tables := by
  cases deadline <;> rfl

/-- No call waits. -/
structure Prompt : Prop where
  lookup : ∀ q s, (c.lookup q).wait s = 0
  edit : ∀ e s, (c.edit e).wait s = 0
  memberships : ∀ m s, (c.roles.membershipsOf m).wait s = 0

end Caches

/-- A resolver that has the registry of the world behind the caches. -/
abbrev World.resolver (c : Caches β) (deadline : Option Duration) : Resolver (World β) :=
  ⟨c.inWorld deadline, Registry.authority World.registryPart⟩

theorem Tables.prompt {C R : Type} {L : Noun → Noun → Type} (ct : CredentialTable C)
    (lt : (c p : Noun) → LinkTable (L c p) c p) (rt : RoleTable R) :
    (caches ct lt rt).Prompt where
  lookup q _ := by cases q <;> rfl
  edit e _ := by
    rcases e with f | x
    · cases f <;> rfl
    · cases x <;> rfl
  memberships _ _ := rfl

end AccessCache
