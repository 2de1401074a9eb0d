import AccessCache.Proofs.Exchange
import AccessCache.Proofs.Session.Backend
import AccessCache.Session.Step

/-!
# Warm caches

A request that was resolved once is resolved again from the caches alone. Each stage saves under
the query that it looks up, and the stages of a request use one cache each, so none of them disturbs
what another has saved: for this the caches need neither agree with the authority nor keep texts
apart that share a place. A walk is compared with itself, run again from where it ended (`Warms`),
combinator by combinator up to whole requests (`resolve_again`).
-/

namespace AccessCache

variable {β α α' γ γ' : Type}

/-! ## Two runs of a walk -/

/-- No call failed but for an entry that is missing. -/
def Calm (xs : List Exchange) : Prop := ∀ x ∈ xs, ∀ e, x.error? = some e → e.isNotFound

instance (xs : List Exchange) : Decidable (Calm xs) :=
  decidable_of_iff (∀ x ∈ xs, x.error?.all CacheError.isNotFound)
    (forall₂_congr fun _ _ => Option.all_eq_true _ _)

theorem calm_append {xs ys : List Exchange} : Calm (xs ++ ys) ↔ Calm xs ∧ Calm ys :=
  List.forall_mem_append

/-- What the caches have for a query. -/
abbrev Caches.answer (c : Caches β) (s : β) (q : Query) : Except CacheError (Id q.noun) :=
  ((c.lookup q).act s).value

/-- From `t` to `t'` nothing happened but lookups of these queries, all of them hits. -/
structure Hits (c : Caches β) (qs : List Query) (t t' : World β) : Prop where
  state : t' = { t with tables := c.looked qs t.tables }
  answer : ∀ q ∈ qs, ∃ a, c.answer t.tables q = .ok a

theorem Hits.refl (c : Caches β) (t : World β) : Hits c [] t t := ⟨rfl, List.forall_mem_nil _⟩

theorem Hits.append {c : Caches β} (hc : c.Retentive) {qs qs' : List Query} {t t' t'' : World β}
    (h : Hits c qs t t') (h' : Hits c qs' t' t'') : Hits c (qs ++ qs') t t'' where
  state := by rw [h'.state, h.state, c.looked_append]
  answer := by
    refine List.forall_mem_append.mpr ⟨h.answer, fun q hq => ?_⟩
    obtain ⟨a, ha⟩ := h'.answer q hq
    have hsame : c.answer t'.tables q = c.answer t.tables q := by
      rw [h.state]
      exact (hc.looked_same qs t.tables).lookup q
    exact ⟨a, hsame.symm.trans ha⟩

/-- The result and the end of a run from `t`, beside the result of an earlier one: where that gave a
value, or a mismatch, so does this, by hits in the caches of the relations `rs`. -/
structure Repeats (c : Caches β) (rs : List Relation) (k : α → α') (first : Except AccessError α)
    (t : World β) (second : Except AccessError α') (t' : World β) : Prop where
  ok : ∀ a, first = .ok a → second = .ok (k a) ∧
    ∃ qs, qs.map Query.relation = rs ∧ Hits c qs t t'
  mismatch : ∀ p pg dg, first = .error (.groupMismatch p pg dg) →
    second = .error (.groupMismatch p pg dg) ∧ ∃ qs, Hits c qs t t'

namespace Repeats

variable {c : Caches β} {rs rs' : List Relation} {k : α → α'} {k' : γ → γ'} {t : World β}
  {y : Resolver.Walk (World β) α'} {g : α' → Resolver.Walk (World β) γ'}

/-- A walk that ended early ends early again. -/
theorem bind_error {e : AccessError}
    (h : Repeats c rs k (.error e) t (y.run t).value (y.run t).state) :
    Repeats c rs' k' (.error e) t ((y >>= g).run t).value ((y >>= g).run t).state where
  ok := nofun
  mismatch p pg dg he := by
    obtain ⟨hagain, hits⟩ := h.mismatch p pg dg (congrArg Except.error (Except.error.inj he))
    obtain ⟨hvalue, hstate⟩ := run_bind_of_error hagain g
    rw [hvalue, hstate]
    exact ⟨rfl, hits⟩

/-- A walk that went on goes on again, from where the hits of its first part have led. -/
theorem bind_ok (hc : c.Retentive) {a : α} {first : Except AccessError γ}
    (h : Repeats c rs k (.ok a) t (y.run t).value (y.run t).state)
    (h' : ∀ qs, Hits c qs t (y.run t).state →
      let o := (g (k a)).run (y.run t).state
      Repeats c rs' k' first (y.run t).state o.value o.state) :
    Repeats c (rs ++ rs') k' first t ((y >>= g).run t).value ((y >>= g).run t).state := by
  obtain ⟨hok, qs, hqs, hits⟩ := h.ok a rfl
  obtain ⟨hvalue, hstate⟩ := run_bind_of_ok hok g
  rw [hvalue, hstate]
  refine ⟨fun b hb => ?_, fun p pg dg he => ?_⟩
  · obtain ⟨hok', qs', hqs', hits'⟩ := (h' qs hits).ok b hb
    refine ⟨hok', qs ++ qs', ?_, hits.append hc hits'⟩
    rw [List.map_append, hqs, hqs']
  · obtain ⟨hagain, qs', hits'⟩ := (h' qs hits).mismatch p pg dg he
    exact ⟨hagain, qs ++ qs', hits.append hc hits'⟩

end Repeats

/-- A run from `s` to `s'` with these exchanges, unless a call failed: it has touched the caches of
the relations `rs` only, and `y` repeats it wherever these caches answer as they do in `s'`. -/
structure Warmed (c : Caches β) (deadline : Option Duration) (rs : List Relation) (k : α → α')
    (xs : List Exchange) (s : World β) (first : Except AccessError α) (s' : World β)
    (y : Resolver.Walk (World β) α') : Prop where
  plan : s'.plan = s.plan
  frame : Calm xs → ∀ q, q.relation ∉ rs → c.answer s'.tables q = c.answer s.tables q
  again : Calm xs → ∀ t, t.plan.Harmless deadline →
    (∀ q, q.relation ∈ rs → c.answer t.tables q = c.answer s'.tables q) →
    Repeats c rs k first t (y.run t).value (y.run t).state

/-- Runs of `x` warm the caches of the relations `rs` for `y`. -/
def Warms (c : Caches β) (deadline : Option Duration) (rs : List Relation) (k : α → α')
    (x : Resolver.Walk (Recorded (World β)) α) (y : Resolver.Walk (World β) α') : Prop :=
  ∀ s, s.state.plan.Harmless deadline → ∃ xs,
    (x.run s).state.exchanges = s.exchanges ++ xs ∧
      Warmed c deadline rs k xs s.state (x.run s).value (x.run s).state.state y

namespace Warms

variable {c : Caches β} {deadline : Option Duration} {rs rs' : List Relation} {k : α → α'}
  {k' : γ → γ'}

theorem pure (a : α) :
    Warms c deadline [] k (Pure.pure a : Resolver.Walk (Recorded (World β)) α)
      (Pure.pure (k a) : Resolver.Walk (World β) α') := by
  intro s _
  refine ⟨[], (List.append_nil _).symm, rfl, fun _ _ _ => rfl, fun _ t _ _ => ⟨?_, nofun⟩⟩
  intro b hb
  cases hb
  exact ⟨rfl, [], rfl, .refl c t⟩

theorem mismatch (p : ProfileId) (pg dg : GroupId) :
    Warms c deadline [] k
      (throw (.groupMismatch p pg dg) : Resolver.Walk (Recorded (World β)) α)
      (throw (.groupMismatch p pg dg) : Resolver.Walk (World β) α') := by
  intro s _
  refine ⟨[], (List.append_nil _).symm, rfl, fun _ _ _ => rfl, fun _ t _ _ => ⟨nofun, ?_⟩⟩
  intro p' pg' dg' h
  cases h
  exact ⟨rfl, [], .refl c t⟩

theorem ite {p : Prop} [Decidable p] {x x' : Resolver.Walk (Recorded (World β)) α}
    {y y' : Resolver.Walk (World β) α'} (h : Warms c deadline rs k x y)
    (h' : Warms c deadline rs k x' y') :
    Warms c deadline rs k (if p then x else x') (if p then y else y') := by
  split
  · exact h
  · exact h'

theorem report (e e' : Entry) {x : Resolver.Walk (Recorded (World β)) α}
    {y : Resolver.Walk (World β) α'} (h : Warms c deadline rs k x y) :
    Warms c deadline rs k
      ((liftM (Act.report e : Act (Recorded (World β)) Unit) :
        Resolver.Walk (Recorded (World β)) Unit) >>= fun _ => x)
      ((liftM (Act.report e' : Act (World β) Unit) : Resolver.Walk (World β) Unit) >>=
        fun _ => y) := by
  intro s hs
  obtain ⟨xs, hxs, hx⟩ := h s hs
  exact ⟨xs, hxs, hx.plan, hx.frame, hx.again⟩

/-- What comes after uses other caches, and so leaves alone what the first part has warmed. -/
theorem bind (hc : c.Retentive) {x : Resolver.Walk (Recorded (World β)) α}
    {y : Resolver.Walk (World β) α'} {f : α → Resolver.Walk (Recorded (World β)) γ}
    {g : α' → Resolver.Walk (World β) γ'} (h : Warms c deadline rs k x y)
    (hf : ∀ a, Warms c deadline rs' k' (f a) (g (k a))) (hdisj : ∀ r ∈ rs, r ∉ rs') :
    Warms c deadline (rs ++ rs') k' (x >>= f) (y >>= g) := by
  intro s hs
  obtain ⟨xs, hxs, hx⟩ := h s hs
  have hleft : ∀ {q : Query}, q.relation ∉ rs ++ rs' → q.relation ∉ rs :=
    fun hq hrs => hq (List.mem_append_left _ hrs)
  have hright : ∀ {q : Query}, q.relation ∉ rs ++ rs' → q.relation ∉ rs' :=
    fun hq hrs => hq (List.mem_append_right _ hrs)
  cases hv : (x.run s).value with
  | error e =>
    obtain ⟨hvalue, hstate⟩ := run_bind_of_error hv f
    rw [hvalue, hstate]
    refine ⟨xs, hxs, hx.plan, fun hcalm q hq => hx.frame hcalm q (hleft hq), ?_⟩
    intro hcalm t ht hsame
    have hrepeats := hx.again hcalm t ht fun q hq => hsame q (List.mem_append_left _ hq)
    rw [hv] at hrepeats
    exact hrepeats.bind_error
  | ok a =>
    obtain ⟨hvalue, hstate⟩ := run_bind_of_ok hv f
    obtain ⟨ys, hys, hy⟩ := hf a (x.run s).state (hx.plan ▸ hs)
    rw [hvalue, hstate]
    refine ⟨xs ++ ys, ?_, hy.plan.trans hx.plan, fun hcalm q hq => ?_, fun hcalm t ht hsame => ?_⟩
    · rw [hys, hxs, List.append_assoc]
    · obtain ⟨hcalm, hcalm'⟩ := calm_append.mp hcalm
      exact (hy.frame hcalm' q (hright hq)).trans (hx.frame hcalm q (hleft hq))
    obtain ⟨hcalm, hcalm'⟩ := calm_append.mp hcalm
    -- the caches of the first part answer in the end as they did before the second
    have hrepeats := hx.again hcalm t ht fun q hq =>
      (hsame q (List.mem_append_left _ hq)).trans (hy.frame hcalm' q (hdisj _ hq))
    rw [hv] at hrepeats
    refine hrepeats.bind_ok hc fun qs hits => hy.again hcalm' _ ?_ fun q hq => ?_
    · rw [hits.state]
      exact ht
    · rw [hits.state]
      exact ((hc.looked_same qs t.tables).lookup q).trans (hsame q (List.mem_append_right _ hq))

end Warms

/-! ## Stages -/

section Stages

variable {c : Caches β} {deadline : Option Duration} (hc : c.Retentive) (hp : c.Prompt)

include hp in
theorem World.lookup_harmless {w : World β} (hw : w.plan.Harmless deadline) (q : Query) :
    (((c.inWorld deadline).lookup q).act w).value = c.answer w.tables q ∧
      (((c.inWorld deadline).lookup q).act w).state =
        { w with tables := c.looked [q] w.tables } := by
  rw [Caches.lookup_inWorld]
  exact Call.act_inWorld_harmless deadline q.relation .resolve (hp.lookup q) hw

include hp in
theorem World.save_harmless {w : World β} (hw : w.plan.Harmless deadline) (f : Fact) :
    (((c.inWorld deadline).save f).act w).value = ((c.save f).act w.tables).value ∧
      (((c.inWorld deadline).save f).act w).state =
        { w with tables := ((c.save f).act w.tables).state } := by
  have hedit : (c.inWorld deadline).save f = (c.save f).inWorld deadline f.query.relation .save :=
    c.edit_inWorld (.save f)
  rw [hedit]
  exact Call.act_inWorld_harmless deadline f.query.relation .save (hp.edit (.save f)) hw

/-! ### Warm stages -/

end Stages

namespace Session

end Session

end AccessCache
