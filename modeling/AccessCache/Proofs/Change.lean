import AccessCache.Change.Apply
import AccessCache.Proofs.Regular

/-!
# What changes do to facts

A change is carried over by edits, in order, up to the first that fails. The edits that reach the
entry of one query follow from the change alone, also where its calls follow from what the caches
hold. So an attempt that is cut short has made some of the edits of the change, and a complete one
has made all (`View.Serves.apply_traced`).
-/

namespace AccessCache

variable {σ ρ : Type}

/-! ## The edits of a change -/

namespace Change

/-- The edits that a change names itself. -/
def direct : Change → List Edit
  | .deviceConnected k d g => [.save (.credential k d), .save (.deviceGroup d g)]
  | .keyRotated d k => [.remove (.credentials d), .save (.credential k d)]
  | .deviceRemoved d => [.remove (.credentials d), .remove (.deviceGroup d)]
  | .deviceReassigned d g => [.save (.deviceGroup d g)]
  | .profileAssigned p g => [.save (.profileGroup p g)]
  | .profileRemoved p => [.remove (.profileGroup p)]
  | .groupAssigned g o => [.save (.groupOrg g o)]
  | .groupRemoved g ms => .remove (.groupOrg g) :: ms.map fun m => .remove (.role ⟨g, m⟩)
  | .roleAssigned g m r => [.save (.role ⟨g, m⟩ r)]
  | .roleRevoked g m => [.remove (.role ⟨g, m⟩)]
  | .memberRemoved _ => []

/-- The edits by which a change reaches the entry of `q`. -/
def edits (q : Query) : Change → List Edit
  | .memberRemoved m =>
    match q with
    | .role k => if k.member = m then [.remove (.role k)] else []
    | _ => []
  | c => c.direct

/-- The texts of the identifiers in a change. -/
def texts : Change → List String
  | .memberRemoved m => [m.text]
  | c => c.direct.flatMap Edit.texts

theorem mem_texts {c : Change} {e : Edit} {t : String} (he : e ∈ c.direct) (ht : t ∈ e.texts) :
    t ∈ c.texts := by
  cases c with
  | memberRemoved m => cases he
  | _ => exact List.mem_flatMap.mpr ⟨e, he, ht⟩

variable {m : MemberId} {q : Query} {es : List Edit}

theorem edits_memberRemoved_role {k : RoleKey} (h : k.member = m) :
    (memberRemoved m).edits (.role k) = [.remove (.role k)] := if_pos h

/-- Removing some roles of a member is part of removing the member. -/
theorem exists_edits_memberRemoved
    (h : ∀ e ∈ es, ∃ k : RoleKey, e = .remove (.role k) ∧ k.member = m) :
    ∃ ys, ys ⊆ (memberRemoved m).edits q ∧ ∀ v, Edit.run q ys v = Edit.run q es v := by
  have hroles : ∀ e ∈ es, ∃ k, e = Edit.remove (.role k) := fun e he => by
    obtain ⟨k, rfl, _⟩ := h e he
    exact ⟨k, rfl⟩
  by_cases hq : ∃ k, q = .role k ∧ Edit.remove (.role k) ∈ es
  · obtain ⟨k, rfl, hk⟩ := hq
    obtain ⟨k', heq, hm⟩ := h _ hk
    cases heq
    refine ⟨[.remove (.role k)], ?_, fun v => ?_⟩
    · rw [edits_memberRemoved_role hm]
      exact List.Subset.refl _
    · rw [Edit.run_roles_of_mem hroles hk, Edit.run_cons, Edit.on_remove_role, if_pos rfl]
      rfl
  · refine ⟨[], List.nil_subset _, fun v => ?_⟩
    exact (Edit.run_roles_of_not_mem hroles (fun k hk hmem => hq ⟨k, hk, hmem⟩) v).symm

/-- Removing all roles that a member has is removing the member. -/
theorem run_edits_memberRemoved {v : Option String}
    (h : ∀ e ∈ es, ∃ k : RoleKey, e = .remove (.role k) ∧ k.member = m)
    (hall : ∀ k : RoleKey, q = .role k → k.member = m → v.isSome →
      Edit.remove (.role k) ∈ es) :
    Edit.run q ((memberRemoved m).edits q) v = Edit.run q es v := by
  have hroles : ∀ e ∈ es, ∃ k, e = Edit.remove (.role k) := fun e he => by
    obtain ⟨k, rfl, _⟩ := h e he
    exact ⟨k, rfl⟩
  by_cases hq : ∃ k, q = .role k ∧ k.member = m
  · obtain ⟨k, rfl, hm⟩ := hq
    rw [edits_memberRemoved_role hm, Edit.run_cons, Edit.on_remove_role, if_pos rfl]
    cases v with
    | none => exact (Edit.run_roles_none hroles).symm
    | some t => exact (Edit.run_roles_of_mem hroles (hall k rfl hm rfl) _).symm
  · have hedits : (memberRemoved m).edits q = [] := by
      cases q with
      | role k => exact if_neg fun hm => hq ⟨k, rfl, hm⟩
      | _ => rfl
    rw [hedits]
    refine (Edit.run_roles_of_not_mem hroles (fun k hk hmem => ?_) v).symm
    obtain ⟨k', heq, hm⟩ := h _ hmem
    cases heq
    exact hq ⟨k, hk, hm⟩

end Change

/-! ## Views -/

/-- What matters of the states that a set of caches works on. -/
structure View (σ ρ : Type) where
  facts : σ → Facts
  /-- What edits leave alone. -/
  rest : σ → ρ
  good : σ → Prop
  /-- No call fails in the state. -/
  calm : σ → Prop
  /-- The edits that keep states good. -/
  allowed : Edit → Prop
  /-- Whether edits may lose entries of others. -/
  lossy : Prop

namespace View

variable (v : View σ ρ)

/-- An attempt from `s` at some edits made some of them, and all if it succeeded. -/
structure Traced {α : Type} (s : σ) (es : Query → List Edit)
    (o : Outcome σ (Except CacheError α)) : Prop where
  good : v.good o.state
  rest : v.rest o.state = v.rest s
  calm : v.calm s → (∃ a, o.value = .ok a) ∧ v.calm o.state
  facts : ∀ q, ∃ ys, ys ⊆ es q ∧ (∀ a, o.value = .ok a → ys = es q) ∧
    Kept v.lossy (v.facts o.state q) (Edit.run q ys (v.facts s q))

/-- The caches do what the view says. -/
structure Serves (c : Caches σ) : Prop where
  edit : ∀ {s e}, v.good s → v.allowed e → v.Traced s (fun _ => [e]) ((c.edit e).act s)
  memberships : ∀ {s}, v.good s → ∀ m, v.Traced s (fun _ => []) ((c.roles.membershipsOf m).act s)
  mem_memberships : ∀ {s m gs}, v.good s → ((c.roles.membershipsOf m).act s).value = .ok gs →
    ∀ g, g ∈ gs ↔ (v.facts ((c.roles.membershipsOf m).act s).state (.role ⟨g, m⟩)).isSome
  role_allowed : ∀ {s k}, v.good s → (v.facts s (.role k)).isSome → v.allowed (.remove (.role k))

variable {v} {s : σ} {es fs : Query → List Edit} {α β : Type}

namespace Traced

/-- Nothing to do. -/
theorem pure (h : v.good s) (a : α) :
    v.Traced s (fun _ => []) ((Pure.pure a : ExceptT CacheError (Act σ) α).run s) where
  good := h
  rest := rfl
  calm hc := ⟨⟨a, rfl⟩, hc⟩
  facts _ := ⟨[], List.Subset.refl _, fun _ _ => rfl, .refl _⟩

/-- One attempt after another, unless the first was cut short. -/
theorem bind {x : ExceptT CacheError (Act σ) α} {f : α → ExceptT CacheError (Act σ) β}
    (hx : v.Traced s es (x.run s))
    (hf : ∀ a, (x.run s).value = .ok a →
      v.Traced (x.run s).state fs ((f a).run (x.run s).state)) :
    v.Traced s (fun q => es q ++ fs q) ((x >>= f).run s) := by
  have hvalue := run_bind_value x f s
  have hstate := run_bind_state x f s
  cases hok : (x.run s).value with
  | error e =>
    rw [hok] at hvalue hstate
    refine ⟨hstate ▸ hx.good, hstate ▸ hx.rest, fun hc => ?_, fun q => ?_⟩
    · obtain ⟨⟨a, ha⟩, _⟩ := hx.calm hc
      rw [hok] at ha
      cases ha
    · obtain ⟨ys, hsub, _, hkept⟩ := hx.facts q
      have hsub' : ys ⊆ es q ++ fs q := List.Subset.trans hsub (List.subset_append_left _ _)
      refine ⟨ys, hsub', fun b h => ?_, hstate ▸ hkept⟩
      cases hvalue.symm.trans h
  | ok a =>
    rw [hok] at hvalue hstate
    have hf := hf a hok
    refine ⟨hstate ▸ hf.good, hstate ▸ hf.rest.trans hx.rest, fun hc => ?_, fun q => ?_⟩
    · rw [hvalue, hstate]
      exact hf.calm (hx.calm hc).2
    · obtain ⟨ys, hsub, hall, hkept⟩ := hx.facts q
      obtain ⟨zs, hsub', hall', hkept'⟩ := hf.facts q
      have hall₂ : ys ++ zs ⊆ es q ++ fs q := List.append_subset.mpr
        ⟨List.Subset.trans hsub (List.subset_append_left _ _),
          List.Subset.trans hsub' (List.subset_append_right _ _)⟩
      refine ⟨ys ++ zs, hall₂, fun b h => ?_, ?_⟩
      · rw [hall a hok, hall' b (hvalue.symm.trans h)]
      · rw [hstate, Edit.run_append]
        exact hkept'.trans (hkept.run q zs)

/-- An attempt at some edits is one at others that come to the same, in part and as a whole. -/
theorem congr {o : Outcome σ (Except CacheError α)} (h : v.Traced s es o)
    (hpart : ∀ q ys, ys ⊆ es q → ∃ zs, zs ⊆ fs q ∧ ∀ t, Edit.run q zs t = Edit.run q ys t)
    (hall : ∀ q, Edit.run q (fs q) (v.facts s q) = Edit.run q (es q) (v.facts s q)) :
    v.Traced s fs o where
  good := h.good
  rest := h.rest
  calm := h.calm
  facts q := by
    obtain ⟨ys, hys, hdone, hkept⟩ := h.facts q
    by_cases hok : ∃ a, o.value = .ok a
    · obtain ⟨a, ha⟩ := hok
      refine ⟨fs q, List.Subset.refl _, fun _ _ => rfl, ?_⟩
      rw [hall, ← hdone a ha]
      exact hkept
    · obtain ⟨zs, hzs, hrun⟩ := hpart q ys hys
      refine ⟨zs, hzs, fun a ha => absurd ⟨a, ha⟩ hok, ?_⟩
      rw [hrun]
      exact hkept

end Traced

/-! ## Carrying changes over -/

namespace Serves

variable {i : Invalidator σ} (hi : v.Serves i.caches)

include hi

theorem removeRoles_traced (h : v.good s) (ks : List RoleKey)
    (hks : ∀ k ∈ ks, v.allowed (.remove (.role k))) :
    v.Traced s (fun _ => ks.map fun k => .remove (.role k)) ((i.removeRoles ks).run s) := by
  induction ks generalizing s with
  | nil => exact .pure h ()
  | cons k ks ih =>
    obtain ⟨hk, hks⟩ := List.forall_mem_cons.mp hks
    have hedit := hi.edit h hk
    exact hedit.bind fun _ _ => ih hedit.good hks

/-- The roles of a member go in the order of the tour, and none is left out. -/
theorem memberRemoved_traced (h : v.good s) (m : MemberId) :
    v.Traced s (fun q => (Change.memberRemoved m).edits q)
      ((i.calls (.memberRemoved m)).run s) := by
  have hmembers := hi.memberships h m
  refine hmembers.bind (f := fun gs => i.removeRoles ((i.tour.now gs).map (⟨·, m⟩)))
    fun gs hgs => ?_
  have hmem : ∀ g, g ∈ i.tour.now gs ↔
      (v.facts ((i.caches.roles.membershipsOf m).act s).state (.role ⟨g, m⟩)).isSome := by
    intro g
    rw [← hi.mem_memberships h hgs, i.tour.mem_now]
  have hallowed : ∀ k ∈ (i.tour.now gs).map (⟨·, m⟩), v.allowed (.remove (.role k)) := by
    intro k hk
    obtain ⟨g, hg, rfl⟩ := List.mem_map.mp hk
    exact hi.role_allowed hmembers.good ((hmem g).mp hg)
  have hroles : ∀ e ∈ ((i.tour.now gs).map (⟨·, m⟩)).map fun k => Edit.remove (.role k),
      ∃ k : RoleKey, e = .remove (.role k) ∧ k.member = m := by
    intro e he
    obtain ⟨k, hk, rfl⟩ := List.mem_map.mp he
    obtain ⟨g, _, rfl⟩ := List.mem_map.mp hk
    exact ⟨_, rfl, rfl⟩
  refine (hi.removeRoles_traced hmembers.good _ hallowed).congr (fun q ys hys => ?_) fun q => ?_
  · exact Change.exists_edits_memberRemoved fun e he => hroles e (hys he)
  · refine Change.run_edits_memberRemoved hroles ?_
    rintro k rfl rfl hsome
    refine List.mem_map.mpr ⟨k, List.mem_map.mpr ⟨k.group, ?_, rfl⟩, rfl⟩
    exact (hmem k.group).mpr hsome

/-- The calls of a change are its edits. -/
theorem calls_traced (h : v.good s) {c : Change} (hc : ∀ e ∈ c.direct, v.allowed e) :
    v.Traced s (fun q => c.edits q) ((i.calls c).run s) := by
  have two : ∀ {e e'}, (∀ x ∈ [e, e'], v.allowed x) → v.Traced s (fun _ => [e, e'])
      (((i.caches.edit e).run >>= fun _ => (i.caches.edit e').run).run s) := by
    intro e e' hall
    have hedit := hi.edit h (hall e List.mem_cons_self)
    have he' : v.allowed e' := hall e' (List.mem_cons_of_mem _ List.mem_cons_self)
    exact hedit.bind fun _ _ => hi.edit hedit.good he'
  cases c with
  | deviceConnected k d g => exact two hc
  | keyRotated d k => exact two hc
  | deviceRemoved d => exact two hc
  | groupRemoved g ms =>
    obtain ⟨hg, hms⟩ := List.forall_mem_cons.mp hc
    have hedit := hi.edit h hg
    have hroles := hi.removeRoles_traced hedit.good (ms.map (⟨g, ·⟩)) fun k hk => by
      obtain ⟨m, hm, rfl⟩ := List.mem_map.mp hk
      exact hms _ (List.mem_map.mpr ⟨m, hm, rfl⟩)
    rw [List.map_map] at hroles
    exact hedit.bind fun _ _ => hroles
  | memberRemoved m => exact hi.memberRemoved_traced h m
  | _ => exact hi.edit h (hc _ List.mem_cons_self)

theorem apply_traced (h : v.good s) {c : Change} (hc : ∀ e ∈ c.direct, v.allowed e) :
    v.Traced s (fun q => c.edits q) ((i.apply c).run s) := by
  have hcalls := hi.calls_traced h hc
  exact ⟨hcalls.good, hcalls.rest, hcalls.calm, hcalls.facts⟩

theorem applyAll_traced (h : v.good s) {cs : List Change}
    (hcs : ∀ c ∈ cs, ∀ e ∈ c.direct, v.allowed e) :
    v.Traced s (fun q => cs.flatMap (Change.edits q)) ((i.applyAll cs).run s) := by
  induction cs generalizing i s with
  | nil => exact .pure h ()
  | cons c cs ih =>
    obtain ⟨hc, hcs⟩ := List.forall_mem_cons.mp hcs
    have happly := hi.apply_traced h hc
    have hrest : v.Serves (i.after 1).caches := hi
    exact happly.bind fun _ _ => ih hrest happly.good hcs

end Serves

end View

end AccessCache
