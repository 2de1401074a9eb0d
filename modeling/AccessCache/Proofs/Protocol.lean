import AccessCache.Proofs.Exchange

/-!
# The order of calls

Which exchanges may lead to which result is told stage by stage, and then for whole requests
(`Protocol.Request`). A walk keeps to the protocol of its request, whatever caches and authority
answer: one lemma for each way to go on, then the stages, then the walk (`Obeys.resolve`).
-/

namespace AccessCache

variable {σ α β : Type}

namespace Protocol

/-! ## Stages and requests -/

/-- No exchange, and this result. -/
def Ends (r : Except AccessError α) : Protocol AccessError α := fun xs r' => xs = [] ∧ r' = r

/-- A stage: the cache is asked once. Unless it has the entry, the authority is asked once. What
the cache had not found is saved as the authority has it, whatever comes of that. -/
inductive Stage (q : Query) : Protocol AccessError (Id q.noun × Bool)
  | hit (a) : Stage q [.lookup q (.ok a)] (.ok (a, true))
  | saved (r k a written) :
      Stage q [.lookup q (.error (.notFound r k)), .question q (.ok (some a)),
        .edit (.save (q.fact a)) written] (.ok (a, false))
  | bypassed (r o a) :
      Stage q [.lookup q (.error (.unavailable r o)), .question q (.ok (some a))] (.ok (a, false))
  | absent (e) : Stage q [.lookup q (.error e), .question q (.ok none)] (.error q.absent)
  | failed (e x) :
      Stage q [.lookup q (.error e), .question q (.error x)] (.error (.source x.reason))

/-- The stage of the profile, where one is named. -/
def Profile (g : GroupId) : Option ProfileId → Protocol AccessError Bool
  | none => Ends (.ok true)
  | some p => Then (Stage (.profileGroup p)) fun (pg : GroupId × Bool) =>
    Ends (if pg.1 = g then .ok pg.2 else .error (.groupMismatch p pg.1 g))

/-- The stage of the role, where a member is named. -/
def Member (g : GroupId) : Option MemberId → Protocol AccessError (Option Role × Bool)
  | none => Ends (.ok (none, true))
  | some m => Then (Stage (.role ⟨g, m⟩)) fun role => Ends (.ok (some role.1, role.2))

/-- A request: device of the key, group of the device, profile, organisation of the group, role
in the group. -/
def Request (q : AccessRequest) : Protocol AccessError AccessContext :=
  Then (Stage (.credential q.key)) fun device =>
  Then (Stage (.deviceGroup device.1)) fun group =>
  Then (Profile group.1 q.profile) fun hit =>
  Then (Stage (.groupOrg group.1)) fun org =>
  Then (Member group.1 q.member) fun role =>
  Ends (.ok ⟨device.1, group.1, org.1, q.profile, role.1,
    device.2 && group.2 && hit && org.2 && role.2⟩)

end Protocol

/-! ## Walks that keep to a protocol -/

/-- Whatever was written down before, the walk adds what the protocol wants. -/
def Obeys (x : Resolver.Walk (Recorded σ) α) (P : Protocol AccessError α) : Prop :=
  ∀ s, ∃ xs, (x.run s).state.exchanges = s.exchanges ++ xs ∧ P xs (x.run s).value

namespace Obeys

open Protocol

variable {P : Protocol AccessError α} {Q : α → Protocol AccessError β}

theorem pure {a : α} (h : P [] (.ok a)) : Obeys (pure a : Resolver.Walk (Recorded σ) α) P :=
  fun s => ⟨[], (List.append_nil s.exchanges).symm, h⟩

theorem throw {e : AccessError} (h : P [] (.error e)) :
    Obeys (throw e : Resolver.Walk (Recorded σ) α) P :=
  fun s => ⟨[], (List.append_nil s.exchanges).symm, h⟩

/-- Reports are no exchanges. -/
theorem report {x : Resolver.Walk (Recorded σ) α} (e : Entry) (h : Obeys x P) :
    Obeys ((liftM (Act.report e : Act (Recorded σ) Unit) :
      Resolver.Walk (Recorded σ) Unit) >>= fun _ => x) P :=
  fun s => h s

/-- A call comes before the exchanges of what follows it. -/
theorem call {P : Protocol AccessError β} {note : α → Exchange} {x : Act σ α}
    {f : α → Resolver.Walk (Recorded σ) β} (h : ∀ a, Obeys (f a) fun xs r => P (note a :: xs) r) :
    Obeys (liftM (x.recorded note) >>= f) P := by
  intro s
  obtain ⟨xs, hxs, hP⟩ := h (x s.state).value ((x.recorded note) s).state
  refine ⟨note (x s.state).value :: xs, ?_, hP⟩
  rw [run_lift_bind_state]
  refine hxs.trans ?_
  simp [Act.recorded]

theorem bind {x : Resolver.Walk (Recorded σ) α} {f : α → Resolver.Walk (Recorded σ) β}
    (h : Obeys x P) (hf : ∀ a, Obeys (f a) (Q a)) : Obeys (x >>= f) (Then P Q) := by
  intro s
  obtain ⟨xs, hxs, hP⟩ := h s
  rw [run_bind_value, run_bind_state]
  revert hP
  cases (x.run s).value with
  | error e => exact fun hP => ⟨xs, hxs, .failed hP⟩
  | ok a =>
    intro hP
    obtain ⟨ys, hys, hQ⟩ := hf a (x.run s).state
    exact ⟨xs ++ ys, by rw [hys, hxs, List.append_assoc], .next hP hQ⟩

/-! ### Stages -/

variable {r : Resolver σ}

theorem ask {q : Query} {P : Protocol AccessError β} {f : Id q.noun → Resolver.Walk (Recorded σ) β}
    (hfailed : ∀ x, P [.question q (.error x)] (.error (.source x.reason)))
    (habsent : P [.question q (.ok none)] (.error q.absent))
    (hanswer : ∀ a, Obeys (f a) fun xs r => P (.question q (.ok (some a)) :: xs) r) :
    Obeys (Resolver.ask (r.recorded.authority.question q) q.absent >>= f) P := by
  have hquestion : r.recorded.authority.question q =
      (r.authority.question q).recorded (.question q) := r.authority.question_recorded q
  rw [hquestion, Resolver.ask, bind_assoc]
  refine call fun answer => ?_
  rcases answer with x | (_ | a)
  · exact throw (hfailed x)
  · exact throw habsent
  · exact hanswer a

theorem writeThrough {f : Fact} {P : Protocol AccessError β} {x : Resolver.Walk (Recorded σ) β}
    (h : ∀ written, Obeys x fun xs r => P (.edit (.save f) written :: xs) r) :
    Obeys (Resolver.writeThrough (r.recorded.caches.save f) >>= fun _ => x) P := by
  have hsave : (r.recorded.caches.save f).act =
      (r.caches.edit (.save f)).act.recorded (.edit (.save f)) :=
    congrArg Call.act (r.caches.edit_recorded (.save f))
  rw [Resolver.writeThrough, hsave, bind_assoc]
  refine call fun written => ?_
  cases written with
  | ok _ => exact h _
  | error e => exact report _ (h _)

theorem stageOf (q : Query) : Obeys (r.recorded.stageOf q) (Stage q) := by
  have hlookup : (r.recorded.caches.lookup q).act =
      (r.caches.lookup q).act.recorded (.lookup q) :=
    congrArg Call.act (r.caches.lookup_recorded q)
  rw [Resolver.stageOf, Resolver.stage, hlookup]
  refine call fun found => ?_
  rcases found with (⟨rel, k⟩ | ⟨rel, o⟩) | a
  · refine ask (fun x => .failed _ x) (.absent _) fun a => ?_
    exact writeThrough fun written => pure (.saved rel k a written)
  · exact report _ (ask (fun x => .failed _ x) (.absent _) fun a => pure (.bypassed rel o a))
  · exact pure (.hit a)

/-! ### The walk -/

theorem checkProfile (g : GroupId) (p : Option ProfileId) :
    Obeys (r.recorded.checkProfile g p) (Profile g p) := by
  cases p with
  | none => exact pure ⟨rfl, rfl⟩
  | some p =>
    refine (stageOf (.profileGroup p)).bind fun (pg : GroupId × Bool) => ?_
    show Obeys (if pg.1 = g then Pure.pure pg.2 else MonadExcept.throw _) _
    by_cases hg : pg.1 = g
    · rw [if_pos hg, if_pos hg]
      exact pure ⟨rfl, rfl⟩
    · rw [if_neg hg, if_neg hg]
      exact throw ⟨rfl, rfl⟩

theorem memberRole (g : GroupId) (m : Option MemberId) :
    Obeys (r.recorded.memberRole g m) (Member g m) := by
  cases m with
  | none => exact pure ⟨rfl, rfl⟩
  | some m => exact (stageOf (.role ⟨g, m⟩)).bind fun role => pure ⟨rfl, rfl⟩

theorem resolve (q : AccessRequest) : Obeys (r.recorded.resolve q) (Request q) := by
  refine (stageOf (.credential q.key)).bind fun device => ?_
  refine (stageOf (.deviceGroup device.1)).bind fun group => ?_
  refine (checkProfile group.1 q.profile).bind fun hit => ?_
  refine (stageOf (.groupOrg group.1)).bind fun org => ?_
  refine (memberRole group.1 q.member).bind fun role => ?_
  exact report _ (pure ⟨rfl, rfl⟩)

end Obeys

/-! ## What the protocol of a request says -/

/-- The lookups of a request, where the device and its group are these. -/
def AccessRequest.queries (q : AccessRequest) (d : DeviceId) (g : GroupId) : List Query :=
  [.credential q.key, .deviceGroup d] ++ q.profile.toList.map .profileGroup ++ [.groupOrg g] ++
    q.member.toList.map fun m => .role ⟨g, m⟩

namespace Protocol

variable {xs : List Exchange}

/-- With nothing asked afterwards, the exchanges are those of the first part. -/
theorem Then.ends_cases {P : Protocol AccessError α} {f : α → Except AccessError β} {r}
    (h : Then P (fun a => Ends (f a)) xs r) :
    (∃ e, P xs (.error e) ∧ r = .error e) ∨ ∃ a, P xs (.ok a) ∧ r = f a := by
  cases h with
  | failed h => exact .inl ⟨_, h, rfl⟩
  | next h hend =>
    obtain ⟨rfl, rfl⟩ := hend
    exact .inr ⟨_, by rwa [List.append_nil], rfl⟩

/-- A stage asks its cache once. -/
theorem Stage.lookups {q : Query} {r} (h : Stage q xs r) : xs.filterMap Exchange.lookup? = [q] := by
  cases h <;> rfl

theorem Profile.lookups {g : GroupId} {p : Option ProfileId} {r} (h : Profile g p xs r) :
    xs.filterMap Exchange.lookup? = p.toList.map .profileGroup := by
  cases p with
  | none =>
    obtain ⟨rfl, -⟩ := h
    rfl
  | some p => obtain ⟨_, h, -⟩ | ⟨_, h, -⟩ := h.ends_cases <;> exact h.lookups

theorem Member.lookups {g : GroupId} {m : Option MemberId} {r} (h : Member g m xs r) :
    xs.filterMap Exchange.lookup? = m.toList.map fun m => .role ⟨g, m⟩ := by
  cases m with
  | none =>
    obtain ⟨rfl, -⟩ := h
    rfl
  | some m => obtain ⟨_, h, -⟩ | ⟨_, h, -⟩ := h.ends_cases <;> exact h.lookups

/-- The authority was not asked. -/
def Unasked (xs : List Exchange) : Prop := ∀ x ∈ xs, x.isQuestion = false

theorem unasked_append {ys : List Exchange} : Unasked (xs ++ ys) ↔ Unasked xs ∧ Unasked ys :=
  List.forall_mem_append

theorem Stage.hit_iff {q : Query} {a : Id q.noun × Bool} (h : Stage q xs (.ok a)) :
    a.2 = true ↔ Unasked xs := by
  cases h <;> simp [Unasked, Exchange.isQuestion]

theorem Profile.hit_iff {g : GroupId} {p : Option ProfileId} {hit : Bool}
    (h : Profile g p xs (.ok hit)) : hit = true ↔ Unasked xs := by
  cases p with
  | none =>
    obtain ⟨rfl, hit⟩ := h
    cases hit
    simp [Unasked]
  | some p =>
    obtain ⟨_, _, hend⟩ | ⟨pg, hstage, hend⟩ := h.ends_cases
    · cases hend
    · split at hend
      · cases hend
        exact hstage.hit_iff
      · cases hend

theorem Member.hit_iff {g : GroupId} {m : Option MemberId} {role : Option Role × Bool}
    (h : Member g m xs (.ok role)) : role.2 = true ↔ Unasked xs := by
  cases m with
  | none =>
    obtain ⟨rfl, hit⟩ := h
    cases hit
    simp [Unasked]
  | some m =>
    obtain ⟨_, _, hend⟩ | ⟨role, hstage, hend⟩ := h.ends_cases
    · cases hend
    · cases hend
      exact hstage.hit_iff

variable {q : AccessRequest}

theorem Request.lookups {r} (h : Request q xs r) :
    ∃ d g, xs.filterMap Exchange.lookup? <+: q.queries d g := by
  unfold AccessRequest.queries
  cases h with
  | failed h₁ => exact ⟨⟨""⟩, ⟨""⟩, by simp [h₁.lookups]⟩
  | @next _ _ device _ h₁ h => cases h with
  | failed h₂ => exact ⟨device.1, ⟨""⟩, by simp [h₁.lookups, h₂.lookups]⟩
  | @next _ _ group _ h₂ h => cases h with
  | failed h₃ => exact ⟨device.1, group.1, by simp [h₁.lookups, h₂.lookups, h₃.lookups]⟩
  | next h₃ h => cases h with
  | failed h₄ =>
    exact ⟨device.1, group.1, by simp [h₁.lookups, h₂.lookups, h₃.lookups, h₄.lookups]⟩
  | next h₄ h => cases h with
  | failed h₅ =>
    exact ⟨device.1, group.1, by
      simp [h₁.lookups, h₂.lookups, h₃.lookups, h₄.lookups, h₅.lookups]⟩
  | next h₅ hend =>
    obtain ⟨rfl, -⟩ := hend
    exact ⟨device.1, group.1, by
      simp [h₁.lookups, h₂.lookups, h₃.lookups, h₄.lookups, h₅.lookups]⟩

theorem Request.of_ok {c : AccessContext} (h : Request q xs (.ok c)) :
    xs.filterMap Exchange.lookup? = q.queries c.device c.group ∧
      (c.fromCache = true ↔ Unasked xs) := by
  obtain ⟨ys₁, device, _, rfl, h₁, h⟩ := h.exists_of_ok
  obtain ⟨ys₂, group, _, rfl, h₂, h⟩ := h.exists_of_ok
  obtain ⟨ys₃, hit, _, rfl, h₃, h⟩ := h.exists_of_ok
  obtain ⟨ys₄, org, _, rfl, h₄, h⟩ := h.exists_of_ok
  obtain ⟨ys₅, role, _, rfl, h₅, rfl, hend⟩ := h.exists_of_ok
  cases hend
  constructor
  · simp [AccessRequest.queries, h₁.lookups, h₂.lookups, h₃.lookups, h₄.lookups, h₅.lookups]
  · simp only [unasked_append, Bool.and_eq_true, h₁.hit_iff, h₂.hit_iff, h₃.hit_iff, h₄.hit_iff,
      h₅.hit_iff, List.append_nil, and_assoc]

end Protocol

/-- Whatever caches and authority do, the exchanges of a walk are those of the protocol of its
request. So the lookups come in the order of the stages, all of them if the walk succeeds, and the
result is said to be from the caches exactly if the authority was not asked. -/
theorem Resolver.resolve_exchanges (r : Resolver σ) (s : σ) (q : AccessRequest) :
    let plain := (r.resolve q).run s
    let o := (r.recorded.resolve q).run ⟨s, []⟩
    let xs := o.state.exchanges
    (o.value = plain.value ∧ o.journal = plain.journal ∧ o.state.state = plain.state) ∧
      Protocol.Request q xs o.value ∧
      (∃ d g, xs.filterMap Exchange.lookup? <+: q.queries d g) ∧
      ∀ c, o.value = .ok c →
        xs.filterMap Exchange.lookup? = q.queries c.device c.group ∧
          (c.fromCache = true ↔ ∀ x ∈ xs, x.isQuestion = false) := by
  intro plain o xs
  obtain ⟨ys, hys, hrequest⟩ := Obeys.resolve (r := r) q ⟨s, []⟩
  obtain rfl : xs = ys := hys
  refine ⟨r.recorded_same.resolve trivial ⟨s, []⟩ s rfl, hrequest, hrequest.lookups, ?_⟩
  intro c hc
  exact Protocol.Request.of_ok (hc ▸ hrequest)

end AccessCache
