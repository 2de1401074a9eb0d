import AccessCache.Proofs.Disk.Unreadable
import AccessCache.Proofs.Session.Equivalence
import AccessCache.Proofs.Session.Warm

/-!
# Seeding

There are two ways to fill caches with a hierarchy: to save its facts, or to resolve the request for
all of it with an authority where it is registered. The walk saves the same facts in the same order,
each of them when the stage before has told its key (`Populated.stage`), so in memory both ways lead
to the same tables. What was saved then answers the request alone, whatever the caches held before
(`Caches.Retentive.answers_after`).
-/

namespace AccessCache

variable {σ β ε α α' : Type}

/-! ## Walks that succeed -/

/-- From `s` a walk gives `a` and ends in `s'`. -/
def Gives (x : ExceptT ε (Act σ) α) (s : σ) (a : α) (s' : σ) : Prop :=
  (x.run s).value = .ok a ∧ (x.run s).state = s'

theorem Gives.bind {x : ExceptT ε (Act σ) α} {f : α → ExceptT ε (Act σ) α'} {s s' s'' : σ} {a : α}
    {b : α'} (h : Gives x s a s') (hf : Gives (f a) s' b s'') : Gives (x >>= f) s b s'' := by
  obtain ⟨hvalue, rfl⟩ := h
  obtain ⟨hvalue', hstate'⟩ := run_bind_of_ok hvalue f
  exact ⟨hvalue'.trans hf.1, hstate'.trans hf.2⟩

/-! ## Hierarchies -/

namespace Hierarchy

variable (h : Hierarchy)

/-- The relations of a hierarchy, in the order of the walk. -/
def facts : List Fact :=
  [.credential h.key h.device, .deviceGroup h.device h.group, .profileGroup h.profile h.group,
    .groupOrg h.group h.org, .role ⟨h.group, h.member⟩ h.role]

/-- What the request for the whole chain comes to. -/
def context (fromCache : Bool) : AccessContext :=
  ⟨h.device, h.group, h.org, some h.profile, some h.role, fromCache⟩

theorem edits_eq : h.edits = h.facts.map .save := rfl

/-- No two facts are for the same cache, whichever texts coincide. -/
theorem nodup_relations : (h.facts.map (·.query.relation)).Nodup := by
  show [Relation.credential, .deviceGroup, .profileGroup, .groupOrg, .role].Nodup
  decide

/-- Seeding is a run of edits. -/
theorem seed_eq (c : Caches σ) : h.seed c = c.editAll h.edits := by
  simp only [seed, edits, Caches.editAll, Caches.edit, Caches.save, bind_pure_unit]

/-- A registry that knows nothing else knows the facts of a registered hierarchy. -/
theorem find_register {q : Query} {a : Id q.noun} (hmem : q.fact a ∈ h.facts) :
    (h.register {}).find q = some a := by
  cases q <;> simp [facts, Query.fact] at hmem
  all_goals
    obtain ⟨rfl, rfl⟩ := hmem
    exact Std.ExtTreeMap.getElem?_insert_self

/-- A walk whose stages all give what the hierarchy says, with an invariant of the facts so far. -/
theorem resolve_gives {r : Resolver σ} {hit : Bool} {I : List Fact → σ → Prop}
    (hstage : ∀ {done rest : List Fact} {q : Query} {a : Id q.noun} {s : σ},
      h.facts = done ++ q.fact a :: rest → I done s →
        ∃ s', Gives (r.stageOf q) s (a, hit) s' ∧ I (done ++ [q.fact a]) s') {s : σ} (hs : I [] s) :
    ∃ s', Gives (r.resolve h.request) s (h.context hit) s' ∧ I h.facts s' := by
  obtain ⟨s₁, hg₁, hs₁⟩ := hstage (q := .credential h.key) (a := h.device) rfl hs
  obtain ⟨s₂, hg₂, hs₂⟩ := hstage (q := .deviceGroup h.device) (a := h.group) rfl hs₁
  obtain ⟨s₃, hg₃, hs₃⟩ := hstage (q := .profileGroup h.profile) (a := h.group) rfl hs₂
  obtain ⟨s₄, hg₄, hs₄⟩ := hstage (q := .groupOrg h.group) (a := h.org) rfl hs₃
  obtain ⟨s₅, hg₅, hs₅⟩ := hstage (q := .role ⟨h.group, h.member⟩) (a := h.role) rfl hs₄
  refine ⟨s₅, ?_, hs₅⟩
  have hprofile : Gives (r.checkProfile h.group (some h.profile)) s₂ hit s₃ := by
    refine Gives.bind hg₃ ?_
    show Gives (if h.group = h.group then pure hit else _) s₃ hit s₃
    rw [if_pos rfl]
    exact ⟨rfl, rfl⟩
  have hrole : Gives (r.memberRole h.group (some h.member)) s₄ (some h.role, hit) s₅ :=
    Gives.bind hg₅ ⟨rfl, rfl⟩
  refine Gives.bind hg₁ (Gives.bind hg₂ (Gives.bind hprofile ?_))
  refine Gives.bind hg₄ (Gives.bind hrole ?_)
  cases hit <;> exact ⟨rfl, rfl⟩

end Hierarchy

/-! ## Runs of edits -/

theorem Fact.exists_fact (f : Fact) : ∃ q a, f = Query.fact q a := by
  cases f with
  | credential k d => exact ⟨.credential k, d, rfl⟩
  | deviceGroup d g => exact ⟨.deviceGroup d, g, rfl⟩
  | profileGroup p g => exact ⟨.profileGroup p, g, rfl⟩
  | groupOrg g o => exact ⟨.groupOrg g, o, rfl⟩
  | role k r => exact ⟨.role k, r, rfl⟩

namespace Caches

variable {c : Caches β} {deadline : Option Duration}

theorem editAll_cons_of_ok {e : Edit} {s : β} (he : ((c.edit e).act s).value = .ok ())
    (es : List Edit) :
    ((c.editAll (e :: es)).run s).value = ((c.editAll es).run ((c.edit e).act s).state).value ∧
      ((c.editAll (e :: es)).run s).state = ((c.editAll es).run ((c.edit e).act s).state).state :=
  run_bind_of_ok (x := (c.edit e).run) he fun _ => c.editAll es

theorem editAll_cons_of_error {e : Edit} {s : β} {err : CacheError}
    (he : ((c.edit e).act s).value = .error err) (es : List Edit) :
    ((c.editAll (e :: es)).run s).value = .error err ∧
      ((c.editAll (e :: es)).run s).state = ((c.edit e).act s).state :=
  run_bind_of_error (x := (c.edit e).run) he fun _ => c.editAll es

/-- Edits of which none failed: the first did not, nor did the others after it. -/
theorem editAll_cons_ok {e : Edit} {es : List Edit} {s : β}
    (h : ((c.editAll (e :: es)).run s).value = .ok ()) :
    ((c.edit e).act s).value = .ok () ∧
      ((c.editAll es).run ((c.edit e).act s).state).value = .ok () := by
  cases he : ((c.edit e).act s).value with
  | ok u => exact ⟨rfl, (editAll_cons_of_ok he es).1.symm.trans h⟩
  | error err => cases (editAll_cons_of_error he es).1.symm.trans h

/-- Edits of which none failed have all been made. -/
theorem state_of_editAll_ok {es : List Edit} {s : β} (h : ((c.editAll es).run s).value = .ok ()) :
    ((c.editAll es).run s).state = c.after es s := by
  induction es generalizing s with
  | nil => rfl
  | cons e es ih =>
    obtain ⟨he, hes⟩ := editAll_cons_ok h
    exact (editAll_cons_of_ok he es).2.trans (ih hes)

/-- Edits that cannot fail in good states do not fail one after the other. -/
theorem Regular.editAll_value {good : β → Prop} {shared : String → String → Prop}
    (hc : c.Regular good shared) {es : List Edit}
    (hok : ∀ {s}, good s → ∀ e ∈ es, ((c.edit e).act s).value = .ok ()) {s : β} (hs : good s) :
    ((c.editAll es).run s).value = .ok () := by
  induction es generalizing s with
  | nil => rfl
  | cons e es ih =>
    have hrest := ih (fun hs e he => hok hs e (List.mem_cons_of_mem _ he)) (hc.edit_good hs e)
    exact (editAll_cons_of_ok (hok hs e List.mem_cons_self) es).1.trans hrest

/-- Without interference edits in a world are edits of its tables. -/
theorem editAll_inWorld (hp : c.Prompt) (es : List Edit) {w : World β}
    (hw : w.plan.Harmless deadline) :
    (((c.inWorld deadline).editAll es).run w).value = ((c.editAll es).run w.tables).value ∧
      (((c.inWorld deadline).editAll es).run w).state =
        { w with tables := ((c.editAll es).run w.tables).state } := by
  induction es generalizing w with
  | nil => exact ⟨rfl, rfl⟩
  | cons e es ih =>
    obtain ⟨hvalue, hstate⟩ := Call.act_inWorld_harmless deadline e.relation e.method (hp.edit e) hw
    rw [← edit_inWorld] at hvalue hstate
    cases he : ((c.edit e).act w.tables).value with
    | ok u =>
      obtain ⟨h₁, h₂⟩ := editAll_cons_of_ok (hvalue.trans he) es
      obtain ⟨h₃, h₄⟩ := editAll_cons_of_ok he es
      rw [h₁, h₂, h₃, h₄, hstate]
      exact ih hw
    | error err =>
      obtain ⟨h₁, h₂⟩ := editAll_cons_of_error (hvalue.trans he) es
      obtain ⟨h₃, h₄⟩ := editAll_cons_of_error he es
      rw [h₁, h₂, h₃, h₄]
      exact ⟨rfl, hstate⟩

namespace Retentive

variable (hc : c.Retentive)

include hc

/-- Saves for other caches leave an answer as it is. -/
theorem answer_after_of_ne {fs : List Fact} {q : Query}
    (hne : ∀ f ∈ fs, q.relation ≠ f.query.relation) (s : β) :
    c.answer (c.after (fs.map .save) s) q = c.answer s q := by
  induction fs generalizing s with
  | nil => rfl
  | cons f fs ih =>
    obtain ⟨hf, hfs⟩ := List.forall_mem_cons.mp hne
    obtain ⟨q', a, rfl⟩ := f.exists_fact
    rw [Fact.query_fact] at hf
    exact (ih hfs _).trans (hc.others a s hf)

/-- Of facts that were saved, one for each cache, all are found. -/
theorem answer_after {fs : List Fact} {s : β} (hnd : (fs.map (·.query.relation)).Nodup)
    (hok : ((c.editAll (fs.map .save)).run s).value = .ok ()) {q : Query} {a : Id q.noun}
    (hmem : q.fact a ∈ fs) : c.answer (c.after (fs.map .save) s) q = .ok a := by
  induction fs generalizing s with
  | nil => cases hmem
  | cons f fs ih =>
    obtain ⟨hnot, hnd⟩ := List.nodup_cons.mp hnd
    obtain ⟨hf, hfs⟩ := editAll_cons_ok hok
    rcases List.mem_cons.mp hmem with rfl | hmem
    · simp only [Fact.query_fact] at hnot
      have hne : ∀ f ∈ fs, q.relation ≠ f.query.relation := fun f hmem heq =>
        hnot (List.mem_map.mpr ⟨f, hmem, heq.symm⟩)
      exact (hc.answer_after_of_ne hne _).trans (hc.saved hf)
    · exact ih hnd hfs hmem

end Retentive

end Caches

/-! ## Stages on the way -/

section Stages

variable {c : Caches β} {deadline : Option Duration} {h : Hierarchy}

/-- A stage whose cache has no entry asks the registry and saves the answer. -/
theorem World.stage_saved (hp : c.Prompt) {w : World β} (hw : w.plan.Harmless deadline)
    (hon : w.registry.offline = false) {q : Query} {a : Id q.noun} {r : Relation} {k : String}
    (hmiss : c.answer w.tables q = .error (.notFound r k)) (hfind : w.registry.find q = some a) :
    Gives ((World.resolver c deadline).stageOf q) w (a, false)
      { w with
        tables := ((c.save (q.fact a)).act (c.looked [q] w.tables)).state
        registry := w.registry.asked } := by
  obtain ⟨hlookup, hlooked⟩ := World.lookup_harmless hp hw q
  obtain ⟨hvalue, hasked⟩ := Registry.question_authority World.registryPart q
    (((c.inWorld deadline).lookup q).act w).state
  have hregistry : World.registryPart.get (((c.inWorld deadline).lookup q).act w).state =
      w.registry := by
    rw [hlooked]
    rfl
  rw [hregistry, if_neg (by simp [hon]), hfind] at hvalue
  obtain ⟨hgives, hstate⟩ :=
    Resolver.stageOf_saved (r := World.resolver c deadline) (hlookup.trans hmiss) hvalue
  refine ⟨hgives, hstate.trans ?_⟩
  rw [hasked, hregistry, hlooked]
  let w' : World β :=
    { w with tables := c.looked [q] w.tables, registry := w.registry.asked }
  exact (World.save_harmless (w := w') hp hw (q.fact a)).2

/-- Everything that the walk asks for is in the caches. -/
structure Seeded (c : Caches β) (deadline : Option Duration) (h : Hierarchy) (r : Registry)
    (w : World β) : Prop where
  harmless : w.plan.Harmless deadline
  registry : w.registry = r
  answer : ∀ {q : Query} {a : Id q.noun}, q.fact a ∈ h.facts → c.answer w.tables q = .ok a

/-- A stage over seeded caches is a hit, and the caches stay seeded. -/
theorem Seeded.stage {r : Registry} {w : World β} (hw : Seeded c deadline h r w) (hc : c.Retentive)
    (hp : c.Prompt) {q : Query} {a : Id q.noun} (hmem : q.fact a ∈ h.facts) :
    ∃ w', Gives ((World.resolver c deadline).stageOf q) w (a, true) w' ∧
      Seeded c deadline h r w' := by
  obtain ⟨hlookup, hlooked⟩ := World.lookup_harmless hp hw.harmless q
  obtain ⟨hvalue, hstate⟩ := Resolver.stageOf_hit (r := World.resolver c deadline)
    (hlookup.trans (hw.answer hmem))
  refine ⟨_, ⟨hvalue, hstate.trans hlooked⟩, hw.harmless, hw.registry, fun hmem' => ?_⟩
  exact ((hc.looked_same [q] w.tables).lookup _).trans (hw.answer hmem')

/-- No fact before the next one is for the same cache. -/
theorem run_saves_of_next {done rest : List Fact} {q : Query} {a : Id q.noun}
    (hnext : h.facts = done ++ q.fact a :: rest) : Edit.run q (done.map .save) none = none := by
  have hnd := h.nodup_relations
  rw [hnext, List.map_append, List.map_cons, List.nodup_append] at hnd
  refine Edit.run_of_fixed fun e he => ?_
  obtain ⟨f, hf, rfl⟩ := List.mem_map.mp he
  refine Edit.on_save_of_ne (fun hq => ?_) none
  refine hnd.2.2 f.query.relation (List.mem_map_of_mem hf) _ List.mem_cons_self ?_
  rw [hq, Fact.query_fact]

/-- The walk has come past the facts `done`: the caches hold these and no others, and the authority
was asked for each of them. -/
structure Populated (c : Caches β) (deadline : Option Duration) (good : β → Prop) (h : Hierarchy)
    (done : List Fact) (w : World β) : Prop where
  harmless : w.plan.Harmless deadline
  good : good w.tables
  facts : c.facts w.tables = fun q => Edit.run q (done.map .save) none
  find : ∀ q, w.registry.find q = (h.register {}).find q
  online : w.registry.offline = false
  lookups : w.registry.lookups = done.length

/-- The next stage finds its cache empty, asks, and saves the answer. -/
theorem Populated.stage {good : β → Prop} {shared : String → String → Prop} {done rest : List Fact}
    {w : World β} (hw : Populated c deadline good h done w) (hc : c.Regular good shared)
    (ht : c.Total good) (hkeeps : ¬ Lossy shared fun _ => True) (hp : c.Prompt) {q : Query}
    {a : Id q.noun} (hnext : h.facts = done ++ q.fact a :: rest) :
    ∃ w', Gives ((World.resolver c deadline).stageOf q) w (a, false) w' ∧
      Populated c deadline good h (done ++ [q.fact a]) w' := by
  have hgood : good (c.looked [q] w.tables) := hc.lookup_good hw.good q
  have hsame : c.facts (c.looked [q] w.tables) = c.facts w.tables := hc.lookup_facts hw.good q
  have hmiss : c.answer w.tables q = .error (.notFound q.relation q.label) := by
    rw [Caches.answer, hc.lookup_value hw.good, congrFun hw.facts q, run_saves_of_next hnext]
    rfl
  have hfind : w.registry.find q = some a := by
    rw [hw.find]
    exact h.find_register (hnext ▸ List.mem_append_right _ List.mem_cons_self)
  refine ⟨_, World.stage_saved hp hw.harmless hw.online hmiss hfind, ?_⟩
  constructor
  · exact hw.harmless
  · exact hc.edit_good hgood (.save (q.fact a))
  · have hafter := hc.facts_after ht hkeeps hgood [.save (q.fact a)]
    refine hafter.trans (funext fun q' => ?_)
    rw [hsame, congrFun hw.facts q', List.map_append, Edit.run_append]
    rfl
  · intro q'
    exact (w.registry.find_asked q').trans (hw.find q')
  · exact hw.online
  · rw [List.length_append, ← hw.lookups]
    rfl

/-! ### Seeding and resolving -/

/-- Seeding in a world is seeding of its tables. -/
theorem World.seed_run (hp : c.Prompt) {w : World β} (hw : w.plan.Harmless deadline)
    (h : Hierarchy) :
    ((h.seed (c.inWorld deadline)).run w).value = ((c.editAll h.edits).run w.tables).value ∧
      ((h.seed (c.inWorld deadline)).run w).state =
        { w with tables := ((c.editAll h.edits).run w.tables).state } := by
  rw [h.seed_eq]
  exact Caches.editAll_inWorld hp h.edits hw

/-- After seeding the caches answer the whole request. -/
theorem World.resolve_seeded (hc : c.Retentive) (hp : c.Prompt) {w : World β}
    (hw : w.plan.Harmless deadline)
    (hok : ((h.seed (c.inWorld deadline)).run w).value = .ok ()) :
    let seeded := (h.seed (c.inWorld deadline)).run w
    let o := ((World.resolver c deadline).resolve h.request).run seeded.state
    o.value = .ok (h.context true) ∧ o.state.registry = w.registry := by
  intro seeded o
  obtain ⟨hvalue, hstate⟩ := World.seed_run hp hw h
  have hall : ((c.editAll h.edits).run w.tables).value = .ok () := hvalue.symm.trans hok
  rw [Caches.state_of_editAll_ok hall] at hstate
  have hseeded : Seeded c deadline h w.registry seeded.state := by
    rw [show seeded.state = _ from hstate]
    exact ⟨hw, rfl, fun hmem => hc.answer_after h.nodup_relations hall hmem⟩
  obtain ⟨w', ⟨hgives, hend⟩, hw'⟩ := h.resolve_gives
    (I := fun _ => Seeded c deadline h w.registry)
    (fun hnext hw => hw.stage hc hp (hnext ▸ List.mem_append_right _ List.mem_cons_self)) hseeded
  exact ⟨hgives, (congrArg World.registry hend).trans hw'.registry⟩

/-- Resolving through empty caches leaves the facts that seeding leaves. -/
theorem World.resolve_populates {good : β → Prop} {shared : String → String → Prop}
    (hc : c.Regular good shared) (ht : c.Total good) (hkeeps : ¬ Lossy shared fun _ => True)
    (hp : c.Prompt) {s : β} (hs : good s) (hempty : c.facts s = fun _ => none)
    (deadline : Option Duration) (h : Hierarchy) :
    let o := ((World.resolver c deadline).resolve h.request).run
      { tables := s, registry := h.register {} }
    let seeded := (h.seed (c.inWorld deadline)).run { tables := s }
    o.value = .ok (h.context false) ∧ o.state.registry.lookups = 5 ∧ seeded.value = .ok () ∧
      good o.state.tables ∧ good seeded.state.tables ∧
      c.facts o.state.tables = c.facts seeded.state.tables := by
  intro o seeded
  have hstart : Populated c deadline good h [] { tables := s, registry := h.register {} } :=
    ⟨Plan.harmless_clear deadline, hs, hempty, fun _ => rfl, rfl, rfl⟩
  obtain ⟨w', ⟨hgives, hend⟩, hw'⟩ := h.resolve_gives (I := Populated c deadline good h)
    (fun hnext hw => hw.stage hc ht hkeeps hp hnext) hstart
  have hall : ((c.editAll h.edits).run s).value = .ok () :=
    hc.editAll_value (fun hs e _ => ht hs e) hs
  obtain ⟨hvalue, hstate⟩ := World.seed_run hp (w := { tables := s })
    (Plan.harmless_clear deadline) h
  rw [Caches.state_of_editAll_ok hall] at hstate
  have hgood : good (c.after h.edits s) := hc.after_good hs h.edits
  have hfacts : c.facts (c.after h.edits s) = c.facts w'.tables := by
    rw [hc.facts_after ht hkeeps hs, hempty, hw'.facts, h.edits_eq]
  rw [show o.state = w' from hend, show seeded.state = _ from hstate]
  exact ⟨hgives, hw'.lookups, hvalue.trans hall, hw'.good, hgood, hfacts.symm⟩

end Stages

/-! ## Room -/

/-- There is room for what edits write; in memory there always is. -/
inductive Backend.HasRoom (es : List Edit) : Backend → Prop
  | memory {opening atHand} : HasRoom es (.memory opening atHand)
  | disk {capacity opening} : (∀ e ∈ es, Disk.Room capacity e) →
      HasRoom es (.disk (Disk.caches capacity) opening)

/-- In a good state only a lack of room makes an edit fail. -/
theorem Disk.edit_value {capacity : Option Nat} {s : Disk.State} {e : Edit} (hs : Good s)
    (hroom : Room capacity e) : (((caches capacity).edit e).act s).value = .ok () := by
  cases he : (((caches capacity).edit e).act s).value with
  | ok u => rfl
  | error err =>
    have hblocked : Blocked s e :=
      ((edit_fails_iff capacity s e).mp ⟨err, he⟩).resolve_right (not_not_intro hroom)
    obtain ⟨err', herr⟩ := (edit_fails_iff none s e).mpr (.inl hblocked)
    cases (total hs e).symm.trans herr

theorem Backend.editAll_value {b : Backend} {es : List Edit} (hroom : b.HasRoom es) {s : b.State}
    (hs : b.Reached (fun _ => True) s) : ((b.caches.editAll es).run s).value = .ok () := by
  cases hroom with
  | memory =>
    exact Memory.regular.editAll_value (fun hs e _ => Memory.total hs e) (Memory.reached_good hs).1
  | disk hroom =>
    exact (Disk.regular _).editAll_value (fun hs e he => Disk.edit_value hs (hroom e he))
      (Disk.reached_good hs).1

/-- In memory the facts determine the tables, whatever was counted. -/
theorem Memory.recounted_ext {s u : State} (hs : Good s) (hu : Good u)
    (hfacts : caches.facts s = caches.facts u) : s.recounted = u.recounted := by
  have hgood : ∀ {t : State}, Good t → Good t.recounted := fun ht =>
    ⟨ht.credentials, ht.deviceGroups, ht.profileGroups, ht.groupOrgs, ht.roles⟩
  have hsame : ∀ {t : State}, Good t → caches.facts t.recounted = caches.facts t := by
    intro t ht
    rw [facts_eq (hgood ht), facts_eq ht]
    funext q
    cases q <;> rfl
  refine state_ext (hgood hs) (hgood hu) ?_ ?_
  · rw [hsame hs, hsame hu, hfacts]
  · funext r
    cases r <;> rfl

namespace Session

/-- Lazy population and seeding agree, whatever the identifiers. In memory the request for a
registered hierarchy is resolved by five questions and leaves the tables that seeding makes. Caches
of any kind can be seeded in any state that calls lead to, where there is room; they then answer the
same request alone, whatever they held before and whatever the authority has to say. -/
theorem seed_agrees (h : Hierarchy) :
    (∀ (opening : List Entry) (atHand : Bool) (deadline : Option Duration),
      let d : Deployment := ⟨.memory opening atHand, deadline⟩
      let o := (d.resolver.resolve h.request).run { d.start with registry := h.register {} }
      let seeded := (h.seed d.caches).run d.start
      o.value = .ok (h.context false) ∧ o.state.registry.lookups = 5 ∧ seeded.value = .ok () ∧
        Tables.recounted o.state.tables = Tables.recounted seeded.state.tables) ∧
      ∀ {setup : Setup} {d : Deployment}, setup.backend.1 = .ok d.backend → ∀ {w : d.World},
        d.backend.Reached (fun _ => True) w.tables → w.plan.Harmless d.deadline →
          let seeded := (h.seed d.caches).run w
          let o := (d.resolver.resolve h.request).run seeded.state
          (d.backend.HasRoom h.edits → seeded.value = .ok ()) ∧
            (seeded.value = .ok () →
              o.value = .ok (h.context true) ∧ o.state.registry = w.registry) := by
  refine ⟨fun opening atHand deadline => ?_, fun hd w hw hplan => ⟨fun hroom => ?_, fun hok => ?_⟩⟩
  · obtain ⟨hvalue, hlookups, hok, hgood, hgood', hfacts⟩ :=
      World.resolve_populates Memory.regular Memory.total (not_lossy_eq _) (Tables.prompt _ _ _)
        Memory.good_empty Memory.facts_empty deadline h
    exact ⟨hvalue, hlookups, hok, Memory.recounted_ext hgood hgood' hfacts⟩
  · exact (World.seed_run (Backend.prompt hd) hplan h).1.trans (Backend.editAll_value hroom hw)
  · exact World.resolve_seeded (Backend.retentive hd) (Backend.prompt hd) hplan hok

/-- Seeding takes the key and the group over from others, and nobody is asked. -/
theorem seed_agrees_takenOver :
    let d : Deployment := ⟨.memory [] false, none⟩
    let h := Hierarchy.reference
    let es : List Edit :=
      [.save (.credential h.key ⟨"former"⟩), .save (.groupOrg h.group ⟨"former"⟩)]
    let w : d.World :=
      { tables := Memory.caches.after es Memory.empty, registry := { offline := true } }
    let seeded := (h.seed d.caches).run w
    let o := (d.resolver.resolve h.request).run seeded.state
    seeded.value = .ok () ∧ o.value = .ok (h.context true) ∧ o.state.registry.lookups = 0 := by
  intro d h es w seeded o
  have hw : d.backend.Reached (fun _ => True) w.tables :=
    .edit (fun _ _ => trivial) (.edit (fun _ _ => trivial) .fresh)
  have hbackend : ({} : Setup).backend.1 = .ok d.backend := rfl
  obtain ⟨hseeds, hanswers⟩ := (seed_agrees h).2 hbackend hw (Plan.harmless_clear none)
  have hok : seeded.value = .ok () := hseeds .memory
  obtain ⟨hvalue, hregistry⟩ := hanswers hok
  exact ⟨hok, hvalue, congrArg Registry.lookups hregistry⟩

end Session

end AccessCache
