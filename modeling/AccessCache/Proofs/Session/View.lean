import AccessCache.Proofs.Change
import AccessCache.Proofs.Session.World

/-!
# Worlds as their facts

Regular caches serve a view that shows their facts, and they still do so in a world, under any plan
and any deadline (`World.view_serves`). Registry and counters stay as they are under edits.
-/

namespace AccessCache

variable {β : Type}

/-! ## Caches by themselves -/

/-- The facts of caches in which all texts are known. -/
def Caches.view (c : Caches β) (good : β → Prop) (shared : String → String → Prop)
    (known : String → Prop) : View β (Relation → Counters) where
  facts := c.facts
  rest := c.counters
  good s := good s ∧ (c.facts s).Known known
  calm _ := c.Total good
  allowed e := ∀ t ∈ e.texts, known t
  lossy := Lossy shared known

namespace Caches.Regular

variable {c : Caches β} {good : β → Prop} {shared : String → String → Prop}
  {known : String → Prop} {s : β}

theorem edit_traced (hc : c.Regular good shared) (h : (c.view good shared known).good s) {e : Edit}
    (he : ∀ t ∈ e.texts, known t) :
    (c.view good shared known).Traced s (fun _ => [e]) ((c.edit e).act s) := by
  have hcalm : (c.view good shared known).calm s →
      (∃ a, ((c.edit e).act s).value = .ok a) ∧ c.Total good :=
    fun htotal => ⟨⟨(), htotal h.1 e⟩, htotal⟩
  rcases hc.edit h.1 e with ⟨_, hgood, heffect, hcounters⟩ | ⟨⟨err, hvalue⟩, hsame⟩
  · have hkept := heffect.kept h.2 he
    refine ⟨⟨hgood, h.2.of_kept he hkept⟩, hcounters, hcalm, fun q => ?_⟩
    exact ⟨[e], List.Subset.refl _, fun _ _ => rfl, hkept q⟩
  · refine ⟨hsame.symm ▸ h, congrArg c.counters hsame, hcalm, fun q => ?_⟩
    refine ⟨[], List.nil_subset _, fun a ha => ?_, .inl (congrArg (c.facts · q) hsame)⟩
    cases hvalue.symm.trans ha

theorem memberships_traced (hc : c.Regular good shared) (h : (c.view good shared known).good s)
    (m : MemberId) :
    (c.view good shared known).Traced s (fun _ => []) ((c.roles.membershipsOf m).act s) := by
  obtain ⟨gs, hok, hsame, _⟩ := hc.memberships h.1 m
  refine ⟨hsame.symm ▸ h, congrArg c.counters hsame, fun htotal => ⟨⟨gs, hok⟩, htotal⟩, fun q => ?_⟩
  exact ⟨[], List.Subset.refl _, fun _ _ => rfl, .inl (congrArg (c.facts · q) hsame)⟩

end Caches.Regular

/-! ## Caches in worlds -/

/-- The facts of a world in which all texts are known. -/
def World.view (c : Caches β) (good : β → Prop) (shared : String → String → Prop)
    (known : String → Prop) : View (World β) (Registry × (Relation → Counters)) where
  facts w := c.facts w.tables
  rest w := (w.registry, c.counters w.tables)
  good w := good w.tables ∧ (c.facts w.tables).Known known
  calm w := c.Total good ∧ w.plan = .clear
  allowed e := ∀ t ∈ e.texts, known t
  lossy := Lossy shared known

namespace World

variable {c : Caches β} {good : β → Prop} {shared : String → String → Prop}
  {known : String → Prop} {deadline : Option Duration} {w : World β}

/-- What a call makes of the tables it makes of the world as well, unless it does not take place. -/
theorem call_traced {α : Type} {es : Query → List Edit} {call : Call β α}
    (hwait : ∀ s, call.wait s = 0) (r : Relation) (m : Method)
    (hgood : (view c good shared known).good w)
    (h : (c.view good shared known).Traced w.tables es (call.act w.tables)) :
    (view c good shared known).Traced w es ((call.inWorld deadline r m).act w) := by
  have hcalm : (view c good shared known).calm w →
      (∃ a, ((call.inWorld deadline r m).act w).value = .ok a) ∧
        (view c good shared known).calm ((call.inWorld deadline r m).act w).state := by
    rintro ⟨htotal, hplan⟩
    obtain ⟨hvalue, hstate⟩ := Call.act_inWorld_clear deadline r m hwait hplan
    rw [hvalue, hstate]
    exact ⟨(h.calm htotal).1, htotal, hplan⟩
  rcases Call.act_inWorld deadline r m call w with
    ⟨err, p, hvalue, hstate⟩ | ⟨p, hvalue, hstate⟩
  · refine ⟨hstate ▸ hgood, hstate ▸ rfl, hcalm, fun q => ?_⟩
    refine ⟨[], List.nil_subset _, fun a ha => ?_, hstate ▸ .refl _⟩
    cases hvalue.symm.trans ha
  · refine ⟨hstate ▸ h.good, ?_, hcalm, fun q => ?_⟩
    · rw [hstate]
      exact Prod.ext rfl h.rest
    · obtain ⟨ys, hys, hall, hkept⟩ := h.facts q
      exact ⟨ys, hys, fun a ha => hall a (hvalue.symm.trans ha), hstate ▸ hkept⟩

theorem edit_traced (hc : c.Regular good shared) (hp : c.Prompt)
    (h : (view c good shared known).good w) {e : Edit} (he : ∀ t ∈ e.texts, known t) :
    (view c good shared known).Traced w (fun _ => [e]) (((c.inWorld deadline).edit e).act w) := by
  rw [Caches.edit_inWorld]
  exact call_traced (hp.edit e) e.relation e.method h (hc.edit_traced h he)

theorem memberships_traced (hc : c.Regular good shared) (hp : c.Prompt)
    (h : (view c good shared known).good w) (m : MemberId) :
    (view c good shared known).Traced w (fun _ => [])
      (((c.inWorld deadline).roles.membershipsOf m).act w) := by
  rw [Caches.membershipsOf_inWorld]
  exact call_traced (hp.memberships m) .role .membershipsOf h (hc.memberships_traced h m)

theorem mem_memberships (hc : c.Regular good shared) (h : (view c good shared known).good w)
    {m : MemberId} {gs : GroupSet}
    (hgs : (((c.inWorld deadline).roles.membershipsOf m).act w).value = .ok gs) (g : GroupId) :
    g ∈ gs ↔ ((view c good shared known).facts
      (((c.inWorld deadline).roles.membershipsOf m).act w).state (.role ⟨g, m⟩)).isSome := by
  rw [Caches.membershipsOf_inWorld] at hgs ⊢
  obtain ⟨gs', hok, hsame, hmem⟩ := hc.memberships h.1 m
  rcases Call.act_inWorld deadline .role .membershipsOf (c.roles.membershipsOf m) w with
    ⟨err, p, hvalue, hstate⟩ | ⟨p, hvalue, hstate⟩
  · cases hvalue.symm.trans hgs
  · cases (hvalue.trans hok).symm.trans hgs
    rw [hmem, hstate, hsame]
    rfl

/-- A lookup fails, or answers as the facts say; it changes no fact and not the registry. -/
theorem lookup_act (deadline : Option Duration) (hc : c.Regular good shared) (h : good w.tables)
    (q : Query) :
    let o := ((c.inWorld deadline).lookup q).act w
    good o.state.tables ∧ c.facts o.state.tables = c.facts w.tables ∧
      o.state.registry = w.registry ∧ ∀ a, o.value = .ok a → c.facts w.tables q = some a.text := by
  rw [Caches.lookup_inWorld]
  rcases Call.act_inWorld deadline q.relation .resolve (c.lookup q) w with
    ⟨err, p, hvalue, hstate⟩ | ⟨p, hvalue, hstate⟩
  · refine ⟨hstate ▸ h, hstate ▸ rfl, hstate ▸ rfl, fun a ha => ?_⟩
    cases hvalue.symm.trans ha
  · refine ⟨hstate ▸ hc.lookup_good h q, hstate ▸ hc.lookup_facts h q, hstate ▸ rfl, fun a ha => ?_⟩
    exact Caches.facts_of_lookup (hvalue.symm.trans ha)

/-- In a world regular caches do what the view says. -/
theorem view_serves (hc : c.Regular good shared) (hp : c.Prompt) :
    (view c good shared known).Serves (c.inWorld deadline) where
  edit h he := edit_traced hc hp h he
  memberships h m := memberships_traced hc hp h m
  mem_memberships h hgs g := mem_memberships hc h hgs g
  role_allowed {w k} h hk := by
    obtain ⟨r, hr⟩ := Option.isSome_iff_exists.mp hk
    exact (h.2 _ r hr).2

end World

end AccessCache
