import AccessCache.Proofs.Session.Backend
import AccessCache.Proofs.Session.Coherence
import AccessCache.Proofs.Session.Mutation

/-!
# Transparency

Caches make no difference to requests (`caches_transparent`), as long as each mutation of the
authority is followed by its change, tried until it succeeds, before the next request. In between
the caches may hold what the authority has dropped. But the edits of the change, made once more,
would bring them back within the authority, and this survives every attempt that is cut short
(`Pending.attempt`), since edits absorb themselves.
-/

namespace AccessCache.Session

/-! ## Pending changes -/

section Pending

variable {β : Type} {c : Caches β} {good : β → Prop} {shared : String → String → Prop}
  {deadline : Option Duration} {w : World β} {x : Change}

/-- The edits of a change would bring the caches within the registry. -/
structure Pending (c : Caches β) (good : β → Prop) (x : Change) (w : World β) : Prop where
  good : good w.tables
  kept : ∀ q, Kept True (Edit.run q (x.edits q) (c.facts w.tables q)) (w.registry.facts q)

/-- After a mutation its change is pending. -/
theorem pending_of_coherent {m : Mutation} (hm : m.change? = some x) (h : Coherent c good w) :
    Pending c good x { w with registry := m.run w.registry } where
  good := h.good
  kept q := by
    rw [Mutation.facts_run hm]
    exact (Facts.within_iff_kept.mp h.within q).run q _

/-- After an attempt the change is still pending, and the world is coherent if it succeeded. -/
theorem Pending.attempt (hc : c.Regular good shared) (hp : c.Prompt) (h : Pending c good x w)
    (tour : Tour) :
    let o := ((⟨c.inWorld deadline, tour⟩ : Invalidator (World β)).apply x).run w
    Pending c good x o.state ∧ (o.value = .ok () → Coherent c good o.state) := by
  intro o
  have htraced : (World.view c good shared fun _ => True).Traced w (fun q => x.edits q) o :=
    View.Serves.apply_traced (i := ⟨c.inWorld deadline, tour⟩) (World.view_serves hc hp)
      ⟨h.good, Facts.known_true _⟩ fun _ _ _ _ => trivial
  have hregistry : o.state.registry = w.registry := congrArg Prod.fst htraced.rest
  refine ⟨⟨htraced.good.1, fun q => ?_⟩, fun hok => ⟨htraced.good.1, ?_⟩⟩
  · -- the edits of this attempt, `ys`, leave no trace once all of them are made again
    obtain ⟨ys, hys, _, hkept⟩ := htraced.facts q
    have hagain := (hkept.mono fun _ => trivial).run q (x.edits q)
    rw [Edit.run_absorb hys] at hagain
    rw [hregistry]
    exact hagain.trans (h.kept q)
  · rw [hregistry, Facts.within_iff_kept]
    intro q
    obtain ⟨ys, _, hall, hkept⟩ := htraced.facts q
    rw [hall () hok] at hkept
    exact (hkept.mono fun _ => trivial).trans (h.kept q)

end Pending

/-! ## Runs -/

variable {d : Deployment}

/-- One attempt to carry a change over. -/
def tried (d : Deployment) (tour : Tour) (x : Change) (w : d.World) :
    Outcome d.World (Except CacheError Unit) :=
  ((⟨d.caches, tour⟩ : Invalidator d.World).apply x).run w

/-- A change is tried, with a tour of its own and under another plan each time, until it
succeeds. -/
inductive Carried (d : Deployment) (x : Change) : d.World → d.World → Prop where
  | done {w : d.World} (tour : Tour) : (tried d tour x w).value = .ok () →
    Carried d x w (tried d tour x w).state
  | again {w w' : d.World} (tour : Tour) (p : Plan) :
    Carried d x { (tried d tour x w).state with plan := p } w' → Carried d x w w'

/-- The worlds in which a request may come, from fresh caches in front of any registry. -/
inductive Reached (d : Deployment) : d.World → Prop where
  | start (r : Registry) : Reached d { d.start with registry := r }
  | interfere {w : d.World} (p : Plan) : Reached d w → Reached d { w with plan := p }
  | outage {w : d.World} (b : Bool) :
    Reached d w → Reached d (d.act (.mutate (.setOffline b)) w).state
  | access {w : d.World} (q : AccessRequest) :
    Reached d w → Reached d (d.act (.access q) w).state
  | stage {w : d.World} (q : Query) : Reached d w → Reached d (d.act (.stage q) w).state
  | mutate {w w' : d.World} {m : Mutation} {x : Change} : m.change? = some x → Reached d w →
    Carried d x (d.act (.mutate m) w).state w' → Reached d w'

variable {good : d.backend.State → Prop} {shared : String → String → Prop} {w w' : d.World}

theorem Carried.coherent (hc : d.backend.caches.Regular good shared) (hp : d.backend.caches.Prompt)
    {x : Change} (h : Carried d x w w') (hw : Pending d.backend.caches good x w) :
    Coherent d.backend.caches good w' := by
  induction h with
  | done tour hok => exact (hw.attempt hc hp tour).2 hok
  | again tour p _ ih =>
    obtain ⟨hgood, hkept⟩ := (hw.attempt hc hp tour).1
    exact ih ⟨hgood, hkept⟩

/-- What a stage of a deployment finds. -/
theorem walk_follows (hc : d.backend.caches.Regular good shared) (hp : d.backend.caches.Prompt)
    (r : Registry) (q : Query) :
    Follows (Sees d.backend.caches good r) (r.offline = false) Prod.fst (d.walk q)
      ((r.answer q).map Id.text) := by
  have hstage : Follows (Sees d.backend.caches good r) (r.offline = false) Prod.fst
      (d.resolver.stageOf q) (r.answer q) := stageOf_follows hc hp q
  cases q <;> exact hstage.map fun _ => rfl

theorem Reached.coherent (hc : d.backend.caches.Regular good shared)
    (hp : d.backend.caches.Prompt) (hfresh : good d.backend.fresh)
    (hempty : d.backend.caches.facts d.backend.fresh = fun _ => none) (h : Reached d w) :
    Coherent d.backend.caches good w := by
  induction h with
  | start r => exact ⟨hfresh, fun q v hv => by cases (congrFun hempty q).symm.trans hv⟩
  | interfere p _ ih => exact ⟨ih.good, ih.within⟩
  | outage b _ ih => exact ⟨ih.good, ih.within⟩
  | access q _ ih =>
    exact (resolve_follows hc hp q _ ⟨ih, fun _ => rfl, rfl⟩).1.toCoherent
  | stage q _ ih =>
    exact (walk_follows hc hp _ q _ ⟨ih, fun _ => rfl, rfl⟩).1.toCoherent
  | mutate hm _ hcarried ih => exact hcarried.coherent hc hp (pending_of_coherent hm ih)

/-! ## Backends -/

/-- The caches of the backend are regular, and empty at first. -/
def Sound (b : Backend) : Prop :=
  ∃ good shared, b.caches.Regular good shared ∧ b.caches.Prompt ∧ good b.fresh ∧
    b.caches.facts b.fresh = fun _ => none

/-- Every backend that a set-up opens is sound. -/
theorem sound_of_backend {s : Setup} {b : Backend} (h : s.backend.1 = .ok b) : Sound b := by
  rcases Setup.backend_cases h with ⟨_, _, rfl⟩ | ⟨capacity, _, rfl⟩
  · exact ⟨_, _, Memory.regular, Tables.prompt _ _ _, Memory.good_empty, Memory.facts_empty⟩
  · exact ⟨_, _, Disk.regular capacity, Tables.prompt _ _ _, Disk.good_empty,
      Disk.facts_empty capacity⟩

/-- Caches make no difference: where every mutation has been carried over, what the caches hold is
what the authority says, and requests and stages come to what the authority alone would make of
them. -/
theorem caches_transparent {s : Setup} {d : Deployment} (hd : s.backend.1 = .ok d.backend)
    {w : d.World} (hw : Reached d w) :
    (d.backend.caches.facts w.tables).Within w.registry.facts ∧
      (w.registry.offline = false →
        (∀ q, ((d.resolver.resolve q).run w).value.map AccessContext.uncached =
          w.registry.access q) ∧
        ∀ q, ((d.walk q).run w).value.map Prod.fst = (w.registry.answer q).map Id.text) := by
  obtain ⟨good, shared, hc, hp, hfresh, hempty⟩ := sound_of_backend hd
  have hcoherent := hw.coherent hc hp hfresh hempty
  have hsees : Sees d.backend.caches good w.registry w := ⟨hcoherent, fun _ => rfl, rfl⟩
  exact ⟨hcoherent.within, fun hon =>
    ⟨fun q => (resolve_follows hc hp q w hsees).2 hon,
      fun q => (walk_follows hc hp w.registry q w hsees).2 hon⟩⟩

/-- A role that the cache holds is revoked, and the removal fails at first. -/
theorem caches_transparent_revoked :
    let d : Deployment := ⟨.memory [] false, none⟩
    let h := Hierarchy.reference
    let revoked : Change := .roleRevoked h.group h.member
    let down : Plan := Plan.clear.withFault .role [.remove] (some ⟨.unavailable "down", 0, none⟩)
    let w₀ : d.World := { d.start with registry := h.register {} }
    let w₁ : d.World := { (d.act (.access h.request) w₀).state with plan := down }
    let w₂ : d.World := (d.act (.mutate (.revokeRole ⟨h.group, h.member⟩)) w₁).state
    let w₃ : d.World := { (tried d .ascending revoked w₂).state with plan := .clear }
    let w₄ : d.World := (tried d .ascending revoked w₃).state
    (tried d .ascending revoked w₂).value = .error (.unavailable .role (.reported "down")) ∧
      Reached d w₄ ∧ ((d.resolver.resolve h.request).run w₄).value.map AccessContext.uncached =
        .error (.noRole h.group h.member) := by
  intro d h revoked down w₀ w₁ w₂ w₃ w₄
  have hw₁ : Reached d w₁ := .interfere down (.access h.request (.start _))
  have hw₄ : Reached d w₄ :=
    .mutate (m := .revokeRole ⟨h.group, h.member⟩) rfl hw₁
      (.again .ascending .clear (.done .ascending rfl))
  have hon : w₄.registry.offline = false := by decide
  have haccess : w₄.registry.access h.request = .error (.noRole h.group h.member) := by decide
  have hbackend : ({} : Setup).backend.1 = .ok d.backend := rfl
  have hcut : (tried d .ascending revoked w₂).value =
      .error (.unavailable .role (.reported "down")) := by decide
  have hsame := ((caches_transparent hbackend hw₄).2 hon).1 h.request
  exact ⟨hcut, hw₄, hsame.trans haccess⟩

end AccessCache.Session
