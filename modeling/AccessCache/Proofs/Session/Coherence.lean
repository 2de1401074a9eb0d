import AccessCache.Proofs.Resolver
import AccessCache.Proofs.Session.View

/-!
# Coherent worlds

A world is coherent when every fact of its caches is one of its registry. Then requests come to
what the registry alone makes of them, whatever interferes with the caches (`resolve_follows`),
and the world stays coherent, since stages save only what the registry has said.
-/

namespace AccessCache

/-! ## The authority alone -/

namespace Registry

/-- A profile must belong to the group. -/
def belongs (r : Registry) (g : GroupId) : Option ProfileId → Except AccessError Unit
  | none => .ok ()
  | some p => do
    let pg : GroupId ← r.answer (.profileGroup p)
    if pg = g then .ok () else .error (.groupMismatch p pg g)

/-- The role of the member, where one is named. -/
def memberRole (r : Registry) (g : GroupId) : Option MemberId → Except AccessError (Option Role)
  | none => .ok none
  | some m => some <$> r.answer (.role ⟨g, m⟩)

/-- What a request comes to where no cache stands before the registry. -/
def access (r : Registry) (q : AccessRequest) : Except AccessError AccessContext := do
  let device ← r.answer (.credential q.key)
  let group ← r.answer (.deviceGroup device)
  r.belongs group q.profile
  let org ← r.answer (.groupOrg group)
  let role ← r.memberRole group q.member
  .ok ⟨device, group, org, q.profile, role, false⟩

end Registry

/-- A context but for where its relations were found. -/
def AccessContext.uncached (c : AccessContext) : AccessContext := { c with fromCache := false }

/-! ## Walks that follow a plan -/

/-- The walk keeps `I`, and comes to `e` when `on` holds. -/
def Follows {σ α β : Type} (I : σ → Prop) (on : Prop) (g : α → β) (x : Resolver.Walk σ α)
    (e : Except AccessError β) : Prop :=
  ∀ s, I s → I (x.run s).state ∧ (on → (x.run s).value.map g = e)

namespace Follows

variable {σ α β α' β' : Type} {I : σ → Prop} {on : Prop} {g : α → β} {g' : α' → β'}

theorem pure {a : α} {b : β} (h : g a = b) :
    Follows I on g (Pure.pure a : Resolver.Walk σ α) (.ok b) :=
  fun _ hs => ⟨hs, fun _ => congrArg Except.ok h⟩

theorem throw (e : AccessError) : Follows I on g (throw e : Resolver.Walk σ α) (.error e) :=
  fun _ hs => ⟨hs, fun _ => rfl⟩

theorem bind {x : Resolver.Walk σ α} {f : α → Resolver.Walk σ α'} {e : Except AccessError β}
    {k : β → Except AccessError β'} (hx : Follows I on g x e)
    (hf : ∀ a, Follows I on g' (f a) (k (g a))) : Follows I on g' (x >>= f) (e >>= k) := by
  intro s hs
  obtain ⟨hI, hon⟩ := hx s hs
  rw [run_bind_value, run_bind_state]
  cases hv : (x.run s).value with
  | error err =>
    refine ⟨hI, fun h => ?_⟩
    rw [← hon h, hv]
    rfl
  | ok a =>
    obtain ⟨hI', hon'⟩ := hf a _ hI
    refine ⟨hI', fun h => ?_⟩
    rw [hon' h, ← hon h, hv]
    rfl

theorem map {x : Resolver.Walk σ α} {e : Except AccessError β} {f : α → α'} {k : β → β'}
    (h : Follows I on g x e) (hf : ∀ a, g' (f a) = k (g a)) :
    Follows I on g' (f <$> x) (e.map k) := by
  intro s hs
  obtain ⟨hI, hon⟩ := h s hs
  rw [run_map_value, run_map_state]
  refine ⟨hI, fun h => ?_⟩
  rw [← hon h]
  cases (x.run s).value with
  | error err => rfl
  | ok a => exact congrArg Except.ok (hf a)

theorem ite {p : Prop} [Decidable p] {x y : Resolver.Walk σ α} {e e' : Except AccessError β}
    (hx : Follows I on g x e) (hy : Follows I on g y e') :
    Follows I on g (if p then x else y) (if p then e else e') := by
  split
  · exact hx
  · exact hy

theorem report (e : Entry) {x : Resolver.Walk σ α} {y : Except AccessError β}
    (h : Follows I on g x y) :
    Follows I on g ((liftM (Act.report e : Act σ Unit) : Resolver.Walk σ Unit) >>= fun _ => x) y :=
  fun s hs => h s hs

end Follows

/-! ## Coherence -/

/-- The tables are good, and what they hold the registry holds as well. -/
structure Coherent {β : Type} (c : Caches β) (good : β → Prop) (w : World β) : Prop where
  good : good w.tables
  within : (c.facts w.tables).Within w.registry.facts

/-- A coherent world whose registry answers as `r` does. -/
structure Sees {β : Type} (c : Caches β) (good : β → Prop) (r : Registry) (w : World β) : Prop
    extends Coherent c good w where
  find : ∀ q, w.registry.find q = r.find q
  offline : w.registry.offline = r.offline

section Stages

variable {β : Type} {c : Caches β} {good : β → Prop} {shared : String → String → Prop}
  {deadline : Option Duration} {r : Registry} {w : World β}

theorem Sees.facts (h : Sees c good r w) : w.registry.facts = r.facts := by
  funext q
  exact congrArg _ (h.find q)

theorem Sees.question (h : Sees c good r w) (q : Query) :
    let o := (Registry.authority World.registryPart).question q w
    Sees c good r o.state ∧
      o.value = if r.offline then .error Registry.outage else .ok (r.find q) := by
  obtain ⟨hvalue, hstate⟩ := Registry.question_authority World.registryPart q w
  refine ⟨hstate ▸ ⟨⟨h.good, ?_⟩, fun q' => ?_, h.offline⟩, hvalue.trans ?_⟩
  · show (c.facts w.tables).Within w.registry.asked.facts
    rw [Registry.facts_asked]
    exact h.within
  · exact (w.registry.find_asked q').trans (h.find q')
  · show (if w.registry.offline then _ else Except.ok (w.registry.find q)) = _
    rw [h.offline, h.find]

variable (hc : c.Regular good shared) (hp : c.Prompt)

include hc in
variable (deadline) in
theorem Sees.lookup (h : Sees c good r w) (q : Query) :
    Sees c good r (((c.inWorld deadline).lookup q).act w).state ∧
      ∀ a, (((c.inWorld deadline).lookup q).act w).value = .ok a → r.answer q = .ok a := by
  obtain ⟨hgood, hfacts, hregistry, hvalue⟩ := World.lookup_act deadline hc h.good q
  refine ⟨⟨⟨hgood, ?_⟩, hregistry ▸ h.find, hregistry ▸ h.offline⟩, fun a ha => ?_⟩
  · rw [hfacts, hregistry]
    exact h.within
  · have hr : r.facts q = some a.text := h.facts ▸ h.within q _ (hvalue a ha)
    obtain ⟨a', hfind, htext⟩ := Option.map_eq_some_iff.mp hr
    cases Id.text_inj htext
    rw [Registry.answer, hfind]

include hc hp in
/-- Saving what the registry says keeps a world coherent, whether it succeeds or not. -/
theorem Sees.save (h : Sees c good r w) {q : Query} {a : Id q.noun} (ha : r.find q = some a) :
    Sees c good r (((c.inWorld deadline).save (q.fact a)).act w).state := by
  have htraced : (World.view c good shared fun _ => True).Traced w _
      (((c.inWorld deadline).save (q.fact a)).act w) :=
    World.edit_traced (e := .save (q.fact a)) hc hp ⟨h.good, Facts.known_true _⟩ fun _ _ => trivial
  have hregistry : (((c.inWorld deadline).save (q.fact a)).act w).state.registry = w.registry :=
    congrArg Prod.fst htraced.rest
  refine ⟨⟨htraced.good.1, ?_⟩, hregistry ▸ h.find, hregistry ▸ h.offline⟩
  rw [hregistry, Facts.within_iff_kept]
  intro q'
  obtain ⟨ys, hys, _, hkept⟩ := htraced.facts q'
  have hfixed : Edit.run q' ys (w.registry.facts q') = w.registry.facts q' := by
    refine Edit.run_of_fixed fun e he => ?_
    obtain rfl := List.mem_singleton.mp (hys he)
    by_cases hq : q = q'
    · subst hq
      rw [h.facts, Registry.facts, ha]
      simp [Edit.on]
    · exact Edit.on_save_of_ne (by simpa using hq) _
  rw [← hfixed]
  exact (hkept.mono fun _ => trivial).trans ((Facts.within_iff_kept.mp h.within q').run q' ys)

include hc hp

/-- Each stage answers as the registry does, and leaves the world coherent. -/
theorem stageOf_follows (q : Query) :
    Follows (Sees c good r) (r.offline = false) Prod.fst
      ((World.resolver c deadline).stageOf q) (r.answer q) := by
  intro w hw
  obtain ⟨hsees, hhit⟩ := hw.lookup deadline hc q
  cases hv : (((c.inWorld deadline).lookup q).act w).value with
  | ok a =>
    obtain ⟨hvalue, hstate⟩ := Resolver.stageOf_hit (r := World.resolver c deadline) hv
    rw [hvalue, hstate]
    exact ⟨hsees, fun _ => (hhit a hv).symm⟩
  | error err =>
    obtain ⟨hvalue, hstate⟩ := Resolver.stageOf_missed (r := World.resolver c deadline) hv
    obtain ⟨hasked, hquestion⟩ := hsees.question q
    rw [hvalue, hquestion]
    refine ⟨?_, fun hon => ?_⟩
    · rcases hstate with hstate | ⟨a, ha, hstate⟩
      · exact hstate ▸ hasked
      · rw [hstate]
        refine hasked.save hc hp ?_
        rw [hquestion] at ha
        split at ha
        · cases ha
        · exact Except.ok.inj ha
    · rw [hon, Registry.answer]
      cases r.find q <;> rfl

theorem checkProfile_follows (g : GroupId) (p : Option ProfileId) :
    Follows (Sees c good r) (r.offline = false) (fun _ => ())
      ((World.resolver c deadline).checkProfile g p) (r.belongs g p) := by
  cases p with
  | none => exact .pure rfl
  | some p =>
    refine (stageOf_follows hc hp (.profileGroup p)).bind fun (_ : GroupId × Bool) => ?_
    exact .ite (.pure rfl) (.throw _)

theorem memberRole_follows (g : GroupId) (m : Option MemberId) :
    Follows (Sees c good r) (r.offline = false) Prod.fst
      ((World.resolver c deadline).memberRole g m) (r.memberRole g m) := by
  cases m with
  | none => exact .pure rfl
  | some m =>
    refine (stageOf_follows hc hp (.role ⟨g, m⟩)).bind fun ⟨role, hit⟩ => ?_
    exact .pure rfl

/-- A request comes to what it comes to without caches. -/
theorem resolve_follows (q : AccessRequest) :
    Follows (Sees c good r) (r.offline = false) AccessContext.uncached
      ((World.resolver c deadline).resolve q) (r.access q) := by
  refine (stageOf_follows hc hp (.credential q.key)).bind fun ⟨device, hit₁⟩ => ?_
  refine (stageOf_follows hc hp (.deviceGroup device)).bind fun ⟨group, hit₂⟩ => ?_
  refine (checkProfile_follows hc hp group q.profile).bind fun hit₃ => ?_
  refine (stageOf_follows hc hp (.groupOrg group)).bind fun ⟨org, hit₄⟩ => ?_
  refine (memberRole_follows hc hp group q.member).bind fun ⟨role, hit₅⟩ => ?_
  exact .report _ (.pure rfl)

end Stages

end AccessCache
