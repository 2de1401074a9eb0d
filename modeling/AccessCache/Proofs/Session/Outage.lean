import AccessCache.Proofs.Session.Transparency

/-!
# Outages of the authority

What a request comes to while the authority is offline, told beside what it comes to online without
caches (`Withstood`): the same, found in the caches alone; or the same mismatch, which the stages
before it settle; or the outage itself. Nothing is known to be absent in an outage, so no request is
denied for that reason, and nothing is learnt, so no entry changes (`resolve_offline`).
-/

namespace AccessCache

/-! ## Walks that withstand an outage -/

/-- A result in an outage, beside the result without it. -/
inductive Withstood {α β : Type} (g : β → α) : Except AccessError β → Except AccessError α → Prop
  | same (b) : Withstood g (.ok b) (.ok (g b))
  | mismatch (p pg dg) :
    Withstood g (.error (.groupMismatch p pg dg)) (.error (.groupMismatch p pg dg))
  | outage (e) : Withstood g e (.error (.source Registry.outage.reason))

/-- From states in `I` the walk comes to what is left of `e` in an outage, and to states in `I`. -/
def Withstands {σ α β : Type} (I : σ → Prop) (g : β → α) (x : Resolver.Walk σ α)
    (e : Except AccessError β) : Prop :=
  ∀ s, I s → I (x.run s).state ∧ Withstood g e (x.run s).value

namespace Withstands

variable {σ α β α' β' : Type} {I : σ → Prop} {g : β → α} {g' : β' → α'}

theorem pure (b : β) : Withstands I g (Pure.pure (g b) : Resolver.Walk σ α) (.ok b) :=
  fun _ hs => ⟨hs, .same b⟩

theorem mismatch (p : ProfileId) (pg dg : GroupId) :
    Withstands I g (throw (.groupMismatch p pg dg) : Resolver.Walk σ α)
      (.error (.groupMismatch p pg dg)) :=
  fun _ hs => ⟨hs, .mismatch p pg dg⟩

/-- What goes on goes on with what the caches had. -/
theorem bind {x : Resolver.Walk σ α} {f : α → Resolver.Walk σ α'} {e : Except AccessError β}
    {k : β → Except AccessError β'} (hx : Withstands I g x e)
    (hf : ∀ b, Withstands I g' (f (g b)) (k b)) : Withstands I g' (x >>= f) (e >>= k) := by
  intro s hs
  obtain ⟨hI, hresult⟩ := hx s hs
  rw [run_bind_value, run_bind_state]
  revert hresult
  generalize (x.run s).value = v
  rintro (b | ⟨p, pg, dg⟩ | _)
  · exact hf b _ hI
  · exact ⟨hI, .mismatch p pg dg⟩
  · exact ⟨hI, .outage _⟩

theorem ite {p : Prop} [Decidable p] {x y : Resolver.Walk σ α} {e e' : Except AccessError β}
    (hx : Withstands I g x e) (hy : Withstands I g y e') :
    Withstands I g (if p then x else y) (if p then e else e') := by
  split
  · exact hx
  · exact hy

theorem report (entry : Entry) {x : Resolver.Walk σ α} {e : Except AccessError β}
    (h : Withstands I g x e) :
    Withstands I g
      ((liftM (Act.report entry : Act σ Unit) : Resolver.Walk σ Unit) >>= fun _ => x) e :=
  fun s hs => h s hs

end Withstands

/-! ## Worlds in an outage -/

variable {β : Type} {c : Caches β} {deadline : Option Duration} {s : β} {r : Registry}

/-- Whatever the plan, a lookup that succeeds finds what the tables have. -/
theorem World.lookup_looked (c : Caches β) (deadline : Option Duration) (q : Query) (w : World β) :
    let o := ((c.inWorld deadline).lookup q).act w
    (∃ qs p, o.state = { w with tables := c.looked qs w.tables, plan := p }) ∧
      ∀ a, o.value = .ok a → ((c.lookup q).act w.tables).value = .ok a := by
  rw [Caches.lookup_inWorld]
  rcases Call.act_inWorld deadline q.relation .resolve (c.lookup q) w with
    ⟨err, p, hvalue, hstate⟩ | ⟨p, hvalue, hstate⟩
  · refine ⟨⟨[], p, hstate⟩, fun a ha => ?_⟩
    cases hvalue.symm.trans ha
  · exact ⟨⟨[q], p, hstate⟩, fun a ha => hvalue.symm.trans ha⟩

/-- The tables are as lookups left them, and the registry as questions did. -/
structure Untaught (c : Caches β) (s : β) (r : Registry) (w : World β) : Prop where
  tables : ∃ qs, w.tables = c.looked qs s
  registry : ∃ n, w.registry = { r with lookups := n }

theorem Untaught.lookup {w : World β} (h : Untaught c s r w) (q : Query) :
    Untaught c s r (((c.inWorld deadline).lookup q).act w).state := by
  obtain ⟨⟨qs, p, hstate⟩, _⟩ := World.lookup_looked c deadline q w
  obtain ⟨qs₀, htables⟩ := h.tables
  rw [hstate]
  refine ⟨⟨qs₀ ++ qs, ?_⟩, h.registry⟩
  rw [Caches.looked_append, ← htables]

theorem Untaught.question {w : World β} (h : Untaught c s r w) (q : Query) :
    Untaught c s r ((Registry.authority World.registryPart).question q w).state := by
  obtain ⟨n, hregistry⟩ := h.registry
  rw [(Registry.question_authority World.registryPart q w).2]
  refine ⟨h.tables, n + 1, ?_⟩
  show w.registry.asked = _
  rw [hregistry]
  rfl

/-- An authority that is offline answers nothing. -/
theorem Untaught.question_value {w : World β} (h : Untaught c s r w) (hoff : r.offline = true)
    (q : Query) :
    ((Registry.authority World.registryPart).question q w).value = .error Registry.outage := by
  obtain ⟨n, hregistry⟩ := h.registry
  have hstill : w.registry.offline = true := by
    rw [hregistry]
    exact hoff
  exact (Registry.question_authority World.registryPart q w).1.trans (if_pos hstill)

section Stages

variable (hc : c.Retentive) (hwithin : (c.facts s).Within r.facts) (hoff : r.offline = true)

include hc hwithin in
/-- What the caches have is what the authority would answer. -/
theorem Untaught.answer_of_hit {w : World β} (h : Untaught c s r w) {q : Query} {a : Id q.noun}
    (ha : (((c.inWorld deadline).lookup q).act w).value = .ok a) : r.answer q = .ok a := by
  obtain ⟨qs, htables⟩ := h.tables
  have hfact : c.facts s q = some a.text := by
    rw [← (hc.looked_same qs s).facts, ← htables]
    exact Caches.facts_of_lookup ((World.lookup_looked c deadline q w).2 a ha)
  obtain ⟨a', hfind, htext⟩ := Option.map_eq_some_iff.mp (hwithin q _ hfact)
  cases Id.text_inj htext
  rw [Registry.answer, hfind]

include hc hwithin hoff

theorem stageOf_withstands (q : Query) :
    Withstands (Untaught c s r) (fun a => (a, true)) ((World.resolver c deadline).stageOf q)
      (r.answer q) := by
  intro w hw
  cases hv : (((c.inWorld deadline).lookup q).act w).value with
  | ok a =>
    obtain ⟨hvalue, hstate⟩ := Resolver.stageOf_hit (r := World.resolver c deadline) hv
    rw [hvalue, hstate, hw.answer_of_hit hc hwithin hv]
    exact ⟨hw.lookup q, .same a⟩
  | error err =>
    have hlooked : Untaught c s r (((c.inWorld deadline).lookup q).act w).state := hw.lookup q
    have hquestion := hlooked.question_value hoff q
    obtain ⟨hvalue, hstate⟩ := Resolver.stageOf_missed (r := World.resolver c deadline) hv
    rw [hvalue, hquestion]
    rcases hstate with hstate | ⟨a, ha, _⟩
    · exact ⟨hstate ▸ hlooked.question q, .outage _⟩
    · cases hquestion.symm.trans ha

theorem checkProfile_withstands (g : GroupId) (p : Option ProfileId) :
    Withstands (Untaught c s r) (fun _ => true) ((World.resolver c deadline).checkProfile g p)
      (r.belongs g p) := by
  cases p with
  | none => exact .pure ()
  | some p =>
    refine (stageOf_withstands hc hwithin hoff (.profileGroup p)).bind fun (pg : GroupId) => ?_
    exact .ite (.pure ()) (.mismatch p pg g)

theorem memberRole_withstands (g : GroupId) (m : Option MemberId) :
    Withstands (Untaught c s r) (fun role => (role, true))
      ((World.resolver c deadline).memberRole g m) (r.memberRole g m) := by
  cases m with
  | none => exact .pure none
  | some m =>
    refine (stageOf_withstands hc hwithin hoff (.role ⟨g, m⟩)).bind fun role => ?_
    exact .pure (some role)

theorem resolve_withstands (q : AccessRequest) :
    Withstands (Untaught c s r) (fun ctx => { ctx with fromCache := true })
      ((World.resolver c deadline).resolve q) (r.access q) := by
  refine (stageOf_withstands hc hwithin hoff (.credential q.key)).bind fun device => ?_
  refine (stageOf_withstands hc hwithin hoff (.deviceGroup device)).bind fun group => ?_
  refine (checkProfile_withstands hc hwithin hoff group q.profile).bind fun _ => ?_
  refine (stageOf_withstands hc hwithin hoff (.groupOrg group)).bind fun org => ?_
  refine (memberRole_withstands hc hwithin hoff group q.member).bind fun role => ?_
  exact .report _ (.pure (⟨device, group, org, q.profile, role, false⟩ : AccessContext))

end Stages

namespace Session

/-- While the authority is offline, a request comes to the context that it would have without
caches, entirely from the caches, or to the same mismatch, or to the outage, whatever else
interferes; and no entry changes. -/
theorem resolve_offline {setup : Setup} {d : Deployment} (hd : setup.backend.1 = .ok d.backend)
    {w : d.World} (hwithin : (d.backend.caches.facts w.tables).Within w.registry.facts)
    (hoff : w.registry.offline = true) (q : AccessRequest) :
    let o := (d.resolver.resolve q).run w
    ((∃ ctx, w.registry.access q = .ok ctx ∧ o.value = .ok { ctx with fromCache := true }) ∨
        (∃ p pg dg, w.registry.access q = .error (.groupMismatch p pg dg) ∧
          o.value = .error (.groupMismatch p pg dg)) ∨
        o.value = .error (.source Registry.outage.reason)) ∧
      d.backend.SameContents w.tables o.state.tables ∧
      ∃ n, o.state.registry = { w.registry with lookups := n } := by
  intro o
  have hw : Untaught d.backend.caches w.tables w.registry w := ⟨⟨[], rfl⟩, _, rfl⟩
  obtain ⟨⟨⟨qs, htables⟩, hregistry⟩, hresult⟩ :=
    resolve_withstands (Backend.retentive hd) hwithin hoff q w hw
  refine ⟨?_, ?_, hregistry⟩
  · have hvalue : Withstood (fun ctx : AccessContext => { ctx with fromCache := true })
        (w.registry.access q) o.value := hresult
    revert hvalue
    generalize w.registry.access q = e
    generalize o.value = v
    rintro (ctx | ⟨p, pg, dg⟩ | _)
    · exact .inl ⟨ctx, rfl, rfl⟩
    · exact .inr (.inl ⟨p, pg, dg, rfl, rfl⟩)
    · exact .inr (.inr rfl)
  · have hlooked := Backend.looked_contents hd qs w.tables
    rw [← htables] at hlooked
    exact hlooked

/-- What was resolved before the outage is resolved in it. -/
theorem resolve_offline_warm :
    let d : Deployment := ⟨.memory [] false, none⟩
    let h := Hierarchy.reference
    let w₀ : d.World := { d.start with registry := h.register {} }
    let w : d.World :=
      (d.act (.mutate (.setOffline true)) (d.act (.access h.request) w₀).state).state
    (d.backend.caches.facts w.tables).Within w.registry.facts ∧ w.registry.offline = true ∧
      ∃ ctx, w.registry.access h.request = .ok ctx ∧
        ((d.resolver.resolve h.request).run w).value = .ok { ctx with fromCache := true } := by
  intro d h w₀ w
  have hw : Reached d w := .outage true (.access h.request (.start _))
  have hbackend : ({} : Setup).backend.1 = .ok d.backend := rfl
  have hwithin : (d.backend.caches.facts w.tables).Within w.registry.facts :=
    (hw.coherent Memory.regular (Tables.prompt _ _ _) Memory.good_empty Memory.facts_empty).within
  have hoff : w.registry.offline = true := rfl
  have hvalue : ((d.resolver.resolve h.request).run w).value =
      .ok ⟨h.device, h.group, h.org, some h.profile, some h.role, true⟩ := by decide
  refine ⟨hwithin, hoff, ?_⟩
  rcases (resolve_offline hbackend hwithin hoff h.request).1 with hok | ⟨p, pg, dg, _, hno⟩ | hno
  · exact hok
  · cases hvalue.symm.trans hno
  · cases hvalue.symm.trans hno

end Session

end AccessCache
