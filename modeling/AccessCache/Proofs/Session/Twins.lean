import AccessCache.Proofs.Resolver
import AccessCache.Proofs.Session.View

/-!
# Twin worlds

Two worlds, over different caches, that show the same: the same facts and counters, and the same
registry. Where the caches are exact, calls and walks come to the same in both and lead to twins
again (`resolve_agree`). So do changes, although their calls may come in different orders.
-/

namespace AccessCache

/-! ## Views side by side -/

namespace View

variable {σ τ ρ α β : Type} {v : View σ ρ} {u : View τ ρ} {s : σ} {t : τ}

/-- States that show the same, and in which no call fails. -/
structure Alike (v : View σ ρ) (u : View τ ρ) (s : σ) (t : τ) : Prop where
  good : v.good s ∧ u.good t
  calm : v.calm s ∧ u.calm t
  facts : v.facts s = u.facts t
  rest : v.rest s = u.rest t

/-- The same edits succeed in both, and lead to the same. -/
theorem Alike.traced {es : Query → List Edit} {o : Outcome σ (Except CacheError α)}
    {p : Outcome τ (Except CacheError β)} (h : Alike v u s t) (hv : ¬ v.lossy) (hu : ¬ u.lossy)
    (ho : v.Traced s es o) (hp : u.Traced t es p) :
    (∃ a, o.value = .ok a) ∧ (∃ b, p.value = .ok b) ∧ Alike v u o.state p.state := by
  obtain ⟨⟨a, ha⟩, hcalm⟩ := ho.calm h.calm.1
  obtain ⟨⟨b, hb⟩, hcalm'⟩ := hp.calm h.calm.2
  refine ⟨⟨a, ha⟩, ⟨b, hb⟩, ⟨ho.good, hp.good⟩, ⟨hcalm, hcalm'⟩, ?_, ?_⟩
  · funext q
    obtain ⟨ys, _, hall, hkept⟩ := ho.facts q
    obtain ⟨zs, _, hall', hkept'⟩ := hp.facts q
    rw [hkept.eq_of_not hv, hkept'.eq_of_not hu, hall a ha, hall' b hb, h.facts]
  · exact ho.rest.trans (h.rest.trans hp.rest.symm)

end View

/-! ## Sides -/

/-- Caches in worlds, with what is known of them. -/
structure Side (β : Type) where
  base : Caches β
  deadline : Option Duration
  good : β → Prop
  shared : String → String → Prop

namespace Side

variable {β : Type} (a : Side β) (known : String → Prop)

abbrev caches : Caches (World β) := a.base.inWorld a.deadline

abbrev resolver : Resolver (World β) := World.resolver a.base a.deadline

abbrev view : View (World β) (Registry × (Relation → Counters)) :=
  World.view a.base a.good a.shared known

/-- The calls neither wait nor fail, and lose no entry of known texts. -/
structure Exact : Prop where
  regular : a.base.Regular a.good a.shared
  prompt : a.base.Prompt
  keeps : ¬ Lossy a.shared known

variable {a known}

theorem Exact.serves (h : a.Exact known) : (a.view known).Serves a.caches :=
  World.view_serves h.regular h.prompt

/-- A lookup answers from the facts and is counted. -/
theorem Exact.lookup (h : a.Exact known) {w : World β} (hgood : (a.view known).good w)
    (hcalm : (a.view known).calm w) (q : Query) :
    let o := (a.caches.lookup q).act w
    o.value = q.reply ((a.view known).facts w q) ∧ (a.view known).good o.state ∧
      (a.view known).calm o.state ∧ (a.view known).facts o.state = (a.view known).facts w ∧
      (a.view known).rest o.state = (w.registry, fun r => if r = q.relation then
        (((a.view known).rest w).2 r).record ((a.view known).facts w q).isSome
        else ((a.view known).rest w).2 r) := by
  intro o
  obtain ⟨hvalue, hstate⟩ := Call.act_inWorld_clear a.deadline q.relation .resolve
    (h.prompt.lookup q) hcalm.2
  rw [← Caches.lookup_inWorld] at hvalue hstate
  have hfacts := h.regular.lookup_facts hgood.1 q
  refine ⟨hvalue.trans (h.regular.lookup_value hgood.1 q), ?_, hstate ▸ hcalm, ?_, ?_⟩
  · refine hstate ▸ ⟨h.regular.lookup_good hgood.1 q, ?_⟩
    show (a.base.facts ((a.base.lookup q).act w.tables).state).Known known
    rw [hfacts]
    exact hgood.2
  · exact hstate ▸ hfacts
  · exact hstate ▸ Prod.ext rfl (funext fun r => h.regular.lookup_counters hgood.1 q r)

end Side

variable {β β' : Type}

/-- Worlds that show the same, and whose texts are all known. -/
structure Twins (a : Side β) (b : Side β') (known : String → Prop) (w : World β) (w' : World β') :
    Prop extends View.Alike (a.view known) (b.view known) w w' where
  registry : w.registry.facts.Known known

/-! ## Calls -/

section Calls

variable {a : Side β} {b : Side β'} {known : String → Prop} (ha : a.Exact known)
  (hb : b.Exact known)

include ha hb

/-- Acts that make the same edits agree. -/
theorem agree_of_traced {es : Query → List Edit} {x : Act (World β) (Except CacheError Unit)}
    {y : Act (World β') (Except CacheError Unit)}
    (hx : ∀ w, (a.view known).good w → (a.view known).Traced w es (x w))
    (hy : ∀ w, (b.view known).good w → (b.view known).Traced w es (y w)) :
    Act.Agree (Twins a b known) Eq x y := by
  intro w w' h
  have ho := hx w h.good.1
  obtain ⟨⟨_, hv⟩, ⟨_, hv'⟩, halike⟩ :=
    h.toAlike.traced ha.keeps hb.keeps ho (hy w' h.good.2)
  have hregistry : (x w).state.registry = w.registry := congrArg Prod.fst ho.rest
  exact ⟨hv.trans hv'.symm, halike, hregistry ▸ h.registry⟩

theorem edit_agree {e : Edit} (he : ∀ t ∈ e.texts, known t) :
    Act.Agree (Twins a b known) Eq (a.caches.edit e).act (b.caches.edit e).act :=
  agree_of_traced ha hb (fun _ h => ha.serves.edit h he) fun _ h => hb.serves.edit h he

theorem memberships_agree (m : MemberId) :
    Act.Agree (Twins a b known) Eq (a.caches.roles.membershipsOf m).act
      (b.caches.roles.membershipsOf m).act := by
  intro w w' h
  have ho := ha.serves.memberships h.good.1 m
  obtain ⟨⟨gs, hgs⟩, ⟨gs', hgs'⟩, halike⟩ :=
    h.toAlike.traced ha.keeps hb.keeps ho (hb.serves.memberships h.good.2 m)
  have hregistry : (((a.caches.roles.membershipsOf m).act w).state).registry = w.registry :=
    congrArg Prod.fst ho.rest
  refine ⟨?_, halike, hregistry ▸ h.registry⟩
  rw [hgs, hgs']
  refine congrArg Except.ok (Std.ExtTreeSet.ext_mem fun g => ?_)
  rw [ha.serves.mem_memberships h.good.1 hgs, hb.serves.mem_memberships h.good.2 hgs',
    halike.facts]

theorem lookup_agree (q : Query) :
    Act.Agree (Twins a b known) (fun x y => x = y ∧ ∀ v, x = .ok v → known v.text)
      (a.caches.lookup q).act (b.caches.lookup q).act := by
  intro w w' h
  obtain ⟨hvalue, hgood, hcalm, hfacts, hrest⟩ := ha.lookup h.good.1 h.calm.1 q
  obtain ⟨hvalue', hgood', hcalm', hfacts', hrest'⟩ := hb.lookup h.good.2 h.calm.2 q
  have hregistry : w.registry = w'.registry := congrArg Prod.fst h.rest
  refine ⟨⟨?_, fun v hv => ?_⟩, ⟨⟨hgood, hgood'⟩, ⟨hcalm, hcalm'⟩, ?_, ?_⟩, ?_⟩
  · rw [hvalue, hvalue', h.facts]
  · rw [hvalue] at hv
    cases hq : (a.view known).facts w q with
    | none =>
      rw [hq] at hv
      cases hv
    | some t =>
      rw [hq] at hv
      cases hv
      exact (h.good.1.2 q t hq).1
  · rw [hfacts, hfacts', h.facts]
  · rw [hrest, hrest', h.facts, h.rest, hregistry]
  · have hsame : ((a.caches.lookup q).act w).state.registry = w.registry := congrArg Prod.fst hrest
    exact hsame ▸ h.registry

omit ha hb in
theorem question_agree (q : Query) :
    Act.Agree (Twins a b known) (fun x y => x = y ∧ ∀ v, x = .ok (some v) → known v.text)
      (a.resolver.authority.question q) (b.resolver.authority.question q) := by
  intro w w' h
  have hregistry : w.registry = w'.registry := congrArg Prod.fst h.rest
  have hcounters : ((a.view known).rest w).2 = ((b.view known).rest w').2 :=
    congrArg Prod.snd h.rest
  obtain ⟨hvalue, hstate⟩ := Registry.question_authority World.registryPart q w
  obtain ⟨hvalue', hstate'⟩ := Registry.question_authority World.registryPart q w'
  rw [hvalue, hvalue', hstate, hstate']
  refine ⟨⟨?_, fun v hv => ?_⟩, ⟨h.good, h.calm, h.facts, Prod.ext ?_ hcounters⟩, ?_⟩
  · show (if w.registry.offline then _ else Except.ok (w.registry.find q)) = _
    rw [hregistry]
    rfl
  · split at hv
    · cases hv
    · have hfact : w.registry.facts q = some v.text := congrArg (Option.map _) (Except.ok.inj hv)
      exact (h.registry q _ hfact).1
  · exact congrArg Registry.asked hregistry
  · show w.registry.asked.facts.Known known
    rw [Registry.facts_asked]
    exact h.registry

/-! ## Walks -/

theorem stageOf_agree {q : Query} (hq : ∀ t ∈ q.texts, known t) :
    Agree (Twins a b known) (fun x y => x = y ∧ known x.1.text) (a.resolver.stageOf q)
      (b.resolver.stageOf q) := by
  have hask : Agree (Twins a b known) (fun x y => x = y ∧ known x.text)
      (Resolver.ask (a.resolver.authority.question q) q.absent)
      (Resolver.ask (b.resolver.authority.question q) q.absent) := by
    refine Agree.lift_bind (question_agree q) ?_
    rintro (e | (_ | v)) _ ⟨rfl, hv⟩
    · exact .throw _
    · exact .throw _
    · exact .pure ⟨rfl, hv v rfl⟩
  refine Agree.lift_bind (lookup_agree ha hb q) ?_
  rintro ((⟨r, k⟩ | ⟨r, o⟩) | v) _ ⟨rfl, hv⟩
  · -- a miss: the answer is written through, and whether that fails is only reported
    refine hask.bind ?_
    rintro v _ ⟨rfl, hv⟩
    have hsave := edit_agree ha hb (e := .save (q.fact v)) (Query.known_fact hv hq)
    have hwrite : Agree (Twins a b known) Eq (Resolver.writeThrough (a.caches.save (q.fact v)))
        (Resolver.writeThrough (b.caches.save (q.fact v))) := by
      refine Agree.lift_bind hsave ?_
      rintro (e | _) _ rfl
      · exact .report _ _ (.pure rfl)
      · exact .pure rfl
    exact hwrite.bind fun _ _ _ => .pure ⟨rfl, hv⟩
  · refine Agree.report _ _ (hask.bind ?_)
    rintro v _ ⟨rfl, hv⟩
    exact .pure ⟨rfl, hv⟩
  · exact .pure ⟨rfl, hv v rfl⟩

theorem checkProfile_agree (g : GroupId) {p : Option ProfileId} (hp : ∀ x ∈ p, known x.text) :
    Agree (Twins a b known) Eq (a.resolver.checkProfile g p) (b.resolver.checkProfile g p) := by
  cases p with
  | none => exact .pure rfl
  | some p =>
    have hq : ∀ t ∈ (Query.profileGroup p).texts, known t :=
      List.forall_mem_singleton.mpr (hp p rfl)
    refine (stageOf_agree ha hb hq).bind ?_
    rintro (v : GroupId × Bool) _ ⟨rfl, _⟩
    exact .ite (.pure rfl) (.throw _)

theorem memberRole_agree {g : GroupId} (hg : known g.text) {m : Option MemberId}
    (hm : ∀ x ∈ m, known x.text) :
    Agree (Twins a b known) Eq (a.resolver.memberRole g m) (b.resolver.memberRole g m) := by
  cases m with
  | none => exact .pure rfl
  | some m =>
    have hq : ∀ t ∈ (Query.role ⟨g, m⟩).texts, known t :=
      List.forall_mem_cons.mpr ⟨hg, List.forall_mem_singleton.mpr (hm m rfl)⟩
    refine (stageOf_agree ha hb hq).bind ?_
    rintro v _ ⟨rfl, _⟩
    exact .pure rfl

/-- A request comes to the same on both sides. -/
theorem resolve_agree {q : AccessRequest} (hkey : known q.key.secret)
    (hprofile : ∀ p ∈ q.profile, known p.text) (hmember : ∀ m ∈ q.member, known m.text) :
    Agree (Twins a b known) Eq (a.resolver.resolve q) (b.resolver.resolve q) := by
  have hq : ∀ t ∈ (Query.credential q.key).texts, known t := List.forall_mem_singleton.mpr hkey
  refine (stageOf_agree ha hb hq).bind ?_
  rintro ⟨device, hit₁⟩ _ ⟨rfl, hdevice⟩
  have hq : ∀ t ∈ (Query.deviceGroup device).texts, known t :=
    List.forall_mem_singleton.mpr hdevice
  refine (stageOf_agree ha hb hq).bind ?_
  rintro ⟨group, hit₂⟩ _ ⟨rfl, hgroup⟩
  refine (checkProfile_agree ha hb group hprofile).bind ?_
  rintro hit₃ _ rfl
  have hq : ∀ t ∈ (Query.groupOrg group).texts, known t := List.forall_mem_singleton.mpr hgroup
  refine (stageOf_agree ha hb hq).bind ?_
  rintro ⟨org, hit₄⟩ _ ⟨rfl, _⟩
  refine (memberRole_agree ha hb hgroup hmember).bind ?_
  rintro ⟨role, hit₅⟩ _ rfl
  exact .report _ _ (.pure rfl)

/-! ## Changes -/

/-- A change comes to the same on both sides, whatever the tours. -/
theorem apply_agree {x : Change} (hx : ∀ e ∈ x.direct, ∀ t ∈ e.texts, known t) (tour tour' : Tour) :
    Act.Agree (Twins a b known) Eq ((⟨a.caches, tour⟩ : Invalidator (World β)).apply x).run
      ((⟨b.caches, tour'⟩ : Invalidator (World β')).apply x).run :=
  agree_of_traced ha hb
    (fun _ h => View.Serves.apply_traced (i := ⟨a.caches, tour⟩) ha.serves h hx)
    fun _ h => View.Serves.apply_traced (i := ⟨b.caches, tour'⟩) hb.serves h hx

theorem applyAll_agree {xs : List Change} (hxs : ∀ x ∈ xs, ∀ e ∈ x.direct, ∀ t ∈ e.texts, known t)
    (tour tour' : Tour) :
    Act.Agree (Twins a b known) Eq ((⟨a.caches, tour⟩ : Invalidator (World β)).applyAll xs).run
      ((⟨b.caches, tour'⟩ : Invalidator (World β')).applyAll xs).run :=
  agree_of_traced ha hb
    (fun _ h => View.Serves.applyAll_traced (i := ⟨a.caches, tour⟩) ha.serves h hxs)
    fun _ h => View.Serves.applyAll_traced (i := ⟨b.caches, tour'⟩) hb.serves h hxs

/-! ## Statistics -/

/-- Twins have the same statistics: as many entries hold the same facts. -/
theorem statistics_eq {w : World β} {w' : World β'} (h : Twins a b known w w') :
    a.caches.statistics w = b.caches.statistics w' := by
  have hcounters : a.base.counters w.tables = b.base.counters w'.tables := congrArg Prod.snd h.rest
  have hfacts : a.base.facts w.tables = b.base.facts w'.tables := h.facts
  have hsame : ∀ r, a.base.statisticsOf w.tables r = b.base.statisticsOf w'.tables r := by
    intro r
    have hr : a.base.counters w.tables r = b.base.counters w'.tables r := congrFun hcounters r
    have hentries : (a.base.statisticsOf w.tables r).entries =
        (b.base.statisticsOf w'.tables r).entries :=
      (ha.regular.entries h.good.1.1 r).unique (hb.regular.entries h.good.2.1 r) fun q => by
        rw [hfacts]
    exact Statistics.ext (congrArg Counters.hits hr) (congrArg Counters.misses hr) hentries
  rw [Side.caches, Side.caches, Caches.statistics_inWorld, Caches.statistics_inWorld,
    Caches.statistics_eq_map, Caches.statistics_eq_map, funext hsame]

end Calls

end AccessCache
