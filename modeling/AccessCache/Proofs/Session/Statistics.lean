import AccessCache.Proofs.Exchange
import AccessCache.Proofs.Session.Transparency

/-!
# Statistics of runs

Operations on caches, some of which may come too late or find a store out of use. After any run
the hits of a cache are the lookups that it answered with an entry and the misses those that it
answered with there being none; nothing else counts, and the entries are as many as there are keys
that a lookup would find now (`statistics_account`). The counters follow the exchanges one by one
(`Operation.act_counters`), whatever the caches hold.
-/

namespace AccessCache

/-! ## Outages -/

/-- The faults of a plan are outages: none of them says that an entry is missing. -/
def Plan.Outages (p : Plan) : Prop :=
  ∀ r m, ∀ f ∈ p.fault r m, ∃ reason, f.kind = .unavailable reason

theorem Fault.next_kind (f : Fault) : f.next.2.kind = f.kind := by
  obtain ⟨kind, skip, count⟩ := f
  rcases skip with _ | n
  · rcases count with _ | _ | n <;> rfl
  · rfl

namespace Plan.Outages

variable {p p' : Plan} {r : Relation} {m : Method}

theorem clear : Plan.clear.Outages := by
  intro r m f hf
  cases hf

theorem next (h : p.Outages) {e : Option CacheError} (hnext : p.next r m = (e, p')) :
    p'.Outages ∧ ∀ err ∈ e, ∃ out, err = .unavailable r out := by
  unfold Plan.next at hnext
  cases hf : p.fault r m with
  | none =>
    rw [hf] at hnext
    cases hnext
    exact ⟨h, nofun⟩
  | some f =>
    rw [hf] at hnext
    cases hnext
    obtain ⟨reason, hkind⟩ := h r m f hf
    refine ⟨fun r' m' f' hf' => ?_, fun err herr => ?_⟩
    · simp only [withFault] at hf'
      split_ifs at hf'
      · obtain rfl := Option.some.inj hf'
        exact ⟨reason, f.next_kind.trans hkind⟩
      · exact h r' m' f' hf'
    · simp only [Option.mem_def, Option.ite_none_right_eq_some, Option.some.injEq] at herr
      obtain ⟨_, rfl⟩ := herr
      exact ⟨.reported reason, by simp only [Fault.error, hkind]⟩

end Plan.Outages

/-! ## Counting exchanges -/

namespace Exchange

/-- A lookup in the cache of `r` that was answered with an entry. -/
def isHit (r : Relation) : Exchange → Bool
  | lookup q (.ok _) => q.relation = r
  | _ => false

/-- A lookup in the cache of `r` that was answered with there being no entry. -/
def isMiss (r : Relation) : Exchange → Bool
  | lookup q (.error e) => q.relation = r && e.isNotFound
  | _ => false

theorem countP_hits_add_misses_le (r : Relation) (xs : List Exchange) :
    xs.countP (·.isHit r) + xs.countP (·.isMiss r) ≤ xs.length := by
  induction xs with
  | nil => simp
  | cons x xs ih =>
    have hone : (if x.isHit r then 1 else 0) + (if x.isMiss r then 1 else 0) ≤ 1 := by
      rcases x with ⟨q, _ | _⟩ | _ | _ | _ <;> simp [isHit, isMiss] <;> split <;> simp
    simp only [List.countP_cons, List.length_cons]
    omega

end Exchange

/-- The counters of the cache of `r` after exchanges. -/
def Counters.after (c : Counters) (r : Relation) (xs : List Exchange) : Counters :=
  ⟨c.hits + xs.countP (·.isHit r), c.misses + xs.countP (·.isMiss r)⟩

theorem Counters.after_append (c : Counters) (r : Relation) (xs ys : List Exchange) :
    c.after r (xs ++ ys) = (c.after r xs).after r ys := by
  simp only [after, List.countP_append, Nat.add_assoc]

theorem Counters.after_of_unavailable {c : Counters} {x : Exchange} {r r' : Relation} {out : Outage}
    (h : x.error? = some (.unavailable r' out)) : c.after r [x] = c := by
  rcases x with ⟨q, _ | _⟩ | _ | _ | _ <;>
    simp_all [after, Exchange.error?, Exchange.errorOf, Exchange.isHit, Exchange.isMiss,
      CacheError.isNotFound]

/-! ## Operations -/

/-- A call on one of the caches, or a new plan for the calls that follow. -/
inductive Operation where
  | lookup (query : Query)
  | edit (edit : Edit)
  | memberships (member : MemberId)
  /-- From now on calls may wait, and stores be out of use. -/
  | disturb (plan : {p : Plan // p.Outages})

namespace Operation

variable {β : Type}

/-- What an operation asks of the caches, with the answer. -/
def act (c : Caches (World β)) : Operation → Act (World β) (List Exchange)
  | lookup q => (fun answer => [.lookup q answer]) <$> (c.lookup q).act
  | edit e => (fun answer => [.edit e answer]) <$> (c.edit e).act
  | memberships m => (fun answer => [.memberships m answer]) <$> (c.roles.membershipsOf m).act
  | disturb p => fun w => ⟨[], { w with plan := p }, []⟩

/-- All exchanges of operations, one after the other. -/
def run (c : Caches (World β)) : List Operation → Act (World β) (List Exchange)
  | [] => pure []
  | o :: os => do
    let xs ← o.act c
    let ys ← run c os
    pure (xs ++ ys)

variable {base : Caches β} {good : β → Prop} {shared : String → String → Prop}
  {deadline : Option Duration} {w : World β}

theorem length_act_le (c : Caches (World β)) (o : Operation) (w : World β) :
    (o.act c w).value.length ≤ 1 := by
  cases o <;> simp [act]

theorem length_run_le (c : Caches (World β)) (os : List Operation) (w : World β) :
    (run c os w).value.length ≤ os.length := by
  induction os generalizing w with
  | nil => simp [run]
  | cons o os ih =>
    have hone := length_act_le c o w
    have hrest := ih (o.act c w).state
    simp only [run, Act.value_bind, Act.value_pure, List.length_append, List.length_cons]
    omega

/-- The tables are good, all faults are outages, and the counters have followed the exchanges. -/
structure Accounted (base : Caches β) (good : β → Prop) (w : World β)
    (o : Outcome (World β) (List Exchange)) : Prop where
  good : good o.state.tables
  outages : o.state.plan.Outages
  counters : ∀ r, base.counters o.state.tables r = (base.counters w.tables r).after r o.value

/-- A call that is accounted for by itself is so in a world: where it does not take place, it says
that the store is out of use. -/
theorem call_accounted {α : Type} (r : Relation) (m : Method) {call : Call β α}
    {note : Except CacheError α → Exchange} (hw : good w.tables) (hplan : w.plan.Outages)
    (hnote : ∀ err, (note (.error err)).error? = some err)
    (hgood : good (call.act w.tables).state)
    (hcounters : ∀ r, base.counters (call.act w.tables).state r =
      (base.counters w.tables r).after r [note (call.act w.tables).value]) :
    Accounted base good w (((fun a => [note a]) <$> (call.inWorld deadline r m).act) w) := by
  have hfailed : ∀ out, ∀ r', base.counters w.tables r' =
      (base.counters w.tables r').after r' [note (.error (.unavailable r out))] :=
    fun out r' => (Counters.after_of_unavailable (hnote _)).symm
  rcases Call.act_inWorld_cases deadline r m call w with
    ⟨d, hvalue, hstate⟩ | ⟨err, p, hnext, hvalue, hstate⟩ | ⟨p, hnext, hvalue, hstate⟩
  · constructor <;> simp only [Act.value_map, Act.state_map, hvalue, hstate]
    · exact hw
    · exact hplan
    · exact hfailed (.late m d)
  · obtain ⟨hp, herr⟩ := hplan.next hnext
    obtain ⟨out, rfl⟩ := herr err rfl
    constructor <;> simp only [Act.value_map, Act.state_map, hvalue, hstate]
    · exact hw
    · exact hp
    · exact hfailed out
  · obtain ⟨hp, -⟩ := hplan.next hnext
    constructor <;> simp only [Act.value_map, Act.state_map, hvalue, hstate]
    · exact hgood
    · exact hp
    · exact hcounters

/-- Every operation is accounted for: of the calls, only lookups that are answered count. -/
theorem act_counters (hc : base.Regular good shared) (hw : good w.tables)
    (hplan : w.plan.Outages) (o : Operation) :
    Accounted base good w (o.act (base.inWorld deadline) w) := by
  cases o with
  | lookup q =>
    rw [act, Caches.lookup_inWorld]
    refine call_accounted q.relation .resolve hw hplan (fun _ => rfl) (hc.lookup_good hw q)
      fun r => ?_
    rw [hc.lookup_counters hw, hc.lookup_value hw]
    cases base.facts w.tables q <;> by_cases hr : q.relation = r <;>
      simp [Counters.after, Counters.record, Query.reply, Exchange.isHit, Exchange.isMiss,
        CacheError.isNotFound, hr, @eq_comm _ r q.relation]
  | edit e =>
    rw [act, Caches.edit_inWorld]
    refine call_accounted e.relation e.method hw hplan (fun _ => rfl) (hc.edit_good hw e)
      fun r => ?_
    rcases hc.edit hw e with ⟨_, _, _, hsame⟩ | ⟨_, hsame⟩ <;> rw [hsame] <;> rfl
  | memberships m =>
    rw [act, Caches.membershipsOf_inWorld]
    obtain ⟨gs, hvalue, hsame, _⟩ := hc.memberships hw m
    refine call_accounted .role .membershipsOf hw hplan (fun _ => rfl) (hsame.symm ▸ hw)
      fun r => ?_
    rw [hsame]
    rfl
  | disturb p => exact ⟨hw, p.2, fun _ => rfl⟩

theorem run_counters (hc : base.Regular good shared) (hw : good w.tables)
    (hplan : w.plan.Outages) (os : List Operation) :
    Accounted base good w (run (base.inWorld deadline) os w) := by
  induction os generalizing w with
  | nil => exact ⟨hw, hplan, fun _ => rfl⟩
  | cons o os ih =>
    have hone : Accounted base good w (o.act (base.inWorld deadline) w) :=
      act_counters hc hw hplan o
    have hrest := ih hone.good hone.outages
    refine ⟨hrest.good, hrest.outages, fun r => ?_⟩
    exact (hrest.counters r).trans
      ((congrArg (Counters.after · r _) (hone.counters r)).trans
        (Counters.after_append _ r _ _).symm)

end Operation

/-! ## Statistics -/

theorem Caches.statisticsOf_inWorld {β : Type} (c : Caches β) (deadline : Option Duration)
    (w : World β) (r : Relation) :
    (c.inWorld deadline).statisticsOf w r = c.statisticsOf w.tables r := by
  cases deadline <;> cases r <;> rfl

theorem Backend.counters_fresh {setup : Setup} {b : Backend} (h : setup.backend.1 = .ok b)
    (r : Relation) : b.caches.counters b.fresh r = {} := by
  rcases Setup.backend_cases h with ⟨_, _, rfl⟩ | ⟨capacity, _, rfl⟩ <;> cases r <;> rfl

/-- In a good state there are as many entries as keys that a lookup finds. -/
theorem Caches.Regular.entries_eq_length {σ : Type} {c : Caches σ} {good : σ → Prop}
    {shared : String → String → Prop} {s : σ} (hc : c.Regular good shared) (hs : good s)
    (r : Relation) :
    ∃ qs : List Query, qs.Nodup ∧ (c.statisticsOf s r).entries = qs.length ∧
      ∀ q, q ∈ qs ↔ q.relation = r ∧ ∃ a, ((c.lookup q).act s).value = .ok a := by
  obtain ⟨qs, hnodup, hmem, hlength⟩ := hc.entries hs r
  refine ⟨qs, hnodup, hlength, fun q => ?_⟩
  have hfound : (∃ a, ((c.lookup q).act s).value = .ok a) ↔ (c.facts s q).isSome := by
    simp only [hc.lookup_value hs, Query.reply_eq_ok_iff, Option.isSome_iff_exists]
    exact ⟨fun ⟨a, ha⟩ => ⟨_, ha⟩, fun ⟨t, ht⟩ => ⟨⟨t⟩, ht⟩⟩
  rw [hmem, hfound]
  by_cases hr : q.relation = r <;> simp [hr]

namespace Session

/-- After any run the statistics of every cache are what its lookups came to and would come to; the
counters stay below the number of operations. -/
theorem statistics_account {setup : Setup} {b : Backend} (hb : setup.backend.1 = .ok b)
    (deadline : Option Duration) (os : List Operation) (r : Relation) :
    let c := b.caches.inWorld deadline
    let o := Operation.run c os { tables := b.fresh }
    let s := c.statisticsOf o.state r
    s.hits = o.value.countP (·.isHit r) ∧ s.misses = o.value.countP (·.isMiss r) ∧
      s.hits + s.misses ≤ os.length ∧
      ∃ qs : List Query, qs.Nodup ∧ s.entries = qs.length ∧
        ∀ q, q ∈ qs ↔ q.relation = r ∧
          ∃ a, ((b.caches.lookup q).act o.state.tables).value = .ok a := by
  intro c o s
  obtain ⟨good, shared, hc, _, hfresh, _⟩ := sound_of_backend hb
  have haccount : Operation.Accounted b.caches good _ o :=
    Operation.run_counters hc hfresh .clear os
  have hs : s = b.caches.statisticsOf o.state.tables r := b.caches.statisticsOf_inWorld _ _ r
  have hcounters := haccount.counters r
  rw [Backend.counters_fresh hb] at hcounters
  have hhits : s.hits = o.value.countP (·.isHit r) := by
    rw [hs, ← Nat.zero_add (List.countP _ _)]
    exact congrArg Counters.hits hcounters
  have hmisses : s.misses = o.value.countP (·.isMiss r) := by
    rw [hs, ← Nat.zero_add (List.countP _ _)]
    exact congrArg Counters.misses hcounters
  refine ⟨hhits, hmisses, ?_, ?_⟩
  · rw [hhits, hmisses]
    exact (Exchange.countP_hits_add_misses_le r o.value).trans (Operation.length_run_le c os _)
  · rw [hs]
    exact hc.entries_eq_length haccount.good r

/-- Of three lookups one is a hit, one is a miss, and one comes too late to count. -/
theorem statistics_account_late :
    let b : Backend := .memory [] false
    let k : Query := .credential ⟨"key"⟩
    let deadline : Duration := .ofMilliseconds 1
    let slow : Plan := Plan.clear.withDelay .credential [.resolve] 2
    let os : List Operation := [.edit (.save (.credential ⟨"key"⟩ ⟨"device"⟩)), .lookup k,
      .lookup (.credential ⟨"other"⟩), .disturb ⟨slow, Plan.Outages.clear⟩, .lookup k]
    let c := b.caches.inWorld (some deadline)
    let o := Operation.run c os { tables := b.fresh }
    let s := c.statisticsOf o.state .credential
    ({} : Setup).backend.1 = .ok b ∧
      o.value.map Exchange.error? = [none, none, some (.notFound .credential "<credential>"),
        some (.unavailable .credential (.late .resolve deadline))] ∧
      s.hits = 1 ∧ s.misses = 1 ∧
      ∃ qs : List Query, qs.Nodup ∧ s.entries = qs.length ∧ k ∈ qs := by
  intro b k deadline slow os c o s
  have hbackend : ({} : Setup).backend.1 = .ok b := rfl
  have herrors : o.value.map Exchange.error? = [none, none,
      some (.notFound .credential "<credential>"),
      some (.unavailable .credential (.late .resolve deadline))] := by decide
  obtain ⟨hhits, hmisses, -, qs, hnodup, hentries, hqs⟩ :=
    statistics_account hbackend (some deadline) os .credential
  have hfound : k ∈ qs := (hqs k).mpr ⟨rfl, ⟨"device"⟩, by decide⟩
  exact ⟨hbackend, herrors, hhits.trans (by decide), hmisses.trans (by decide), qs, hnodup,
    hentries, hfound⟩

end Session

end AccessCache
