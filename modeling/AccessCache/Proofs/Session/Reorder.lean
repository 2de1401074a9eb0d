import AccessCache.Proofs.Same
import AccessCache.Proofs.Session.Replay
import Mathlib.Data.List.Pairwise

/-!
# Reordering changes

Changes that name nothing in common may be applied in any order. None of them touches what another
one saves, though one may save a key that still belongs to a device which another one removes, so
their edits commute at every entry (`Change.Independent.edits_comm`). What commutes in pairs may be
permuted (`Change.run_perm`), and in memory equal entries make equal tables, reverse indices
included (`attempt_reordered`).
-/

namespace AccessCache

/-! ## Edits that commute -/

namespace Edit

/-- Neither edit touches what the other saves. -/
structure Apart (e e' : Edit) : Prop where
  left : ∀ f, e = save f → e'.Spares f.query f.text
  right : ∀ f, e' = save f → e.Spares f.query f.text

variable {q : Query}

theorem on_spared {e : Edit} {t : String} (h : e.Spares q t) : e.on q (some t) = some t :=
  on_eq_some_iff.mpr (.inr ⟨rfl, h⟩)

/-- A save comes to the same before and after an edit that spares what it saves. -/
theorem on_save_comm {f : Fact} {e : Edit} (h : e.Spares f.query f.text) (v : Option String) :
    (save f).on q (e.on q v) = e.on q ((save f).on q v) := by
  by_cases hq : f.query = q
  · subst hq
    rw [on_save_self, on_save_self, on_spared h]
  · rw [on_save_of_ne hq, on_save_of_ne hq]

theorem Apart.on_comm {e e' : Edit} (h : e.Apart e') (v : Option String) :
    e.on q (e'.on q v) = e'.on q (e.on q v) := by
  cases e with
  | save f => exact on_save_comm (h.left f rfl) v
  | remove x =>
    cases e' with
    | save f => exact (on_save_comm (h.right f rfl) v).symm
    | remove y => exact on_remove_comm x y v

theorem on_run_comm {e : Edit} {es : List Edit} (h : ∀ e' ∈ es, e.Apart e') (v : Option String) :
    e.on q (run q es v) = run q es (e.on q v) := by
  induction es generalizing v with
  | nil => rfl
  | cons e' es ih =>
    obtain ⟨he', hes⟩ := List.forall_mem_cons.mp h
    rw [run_cons, run_cons, ih hes, he'.on_comm]

theorem run_comm {es es' : List Edit} (h : ∀ e ∈ es, ∀ e' ∈ es', e.Apart e') (v : Option String) :
    run q es (run q es' v) = run q es' (run q es v) := by
  induction es generalizing v with
  | nil => rfl
  | cons e es ih =>
    obtain ⟨he, hes⟩ := List.forall_mem_cons.mp h
    rw [run_cons, run_cons, on_run_comm he, ih hes]

end Edit

/-! ## Changes that name nothing in common -/

namespace Change

def devices : Change → List DeviceId
  | .deviceConnected _ d _ => [d]
  | .keyRotated d _ => [d]
  | .deviceRemoved d => [d]
  | .deviceReassigned d _ => [d]
  | _ => []

def profiles : Change → List ProfileId
  | .profileAssigned p _ => [p]
  | .profileRemoved p => [p]
  | _ => []

def memberIds : Change → List MemberId
  | .groupRemoved _ ms => ms
  | .roleAssigned _ m _ => [m]
  | .roleRevoked _ m => [m]
  | .memberRemoved m => [m]
  | _ => []

/-- The group that a change puts into an organisation or takes out of it. -/
def placed? : Change → Option GroupId
  | .groupAssigned g _ => some g
  | .groupRemoved g _ => some g
  | _ => none

/-- The changes name no key, device, profile or member in common, and do not both place the same
group. -/
structure Independent (x y : Change) : Prop where
  keys : ∀ k ∈ x.keys, k ∉ y.keys
  devices : ∀ d ∈ x.devices, d ∉ y.devices
  profiles : ∀ p ∈ x.profiles, p ∉ y.profiles
  members : ∀ m ∈ x.memberIds, m ∉ y.memberIds
  groups : ∀ g ∈ x.placed?, g ∉ y.placed?

variable {x y : Change}

theorem Independent.symm (h : x.Independent y) : y.Independent x where
  keys k hk hk' := h.keys k hk' hk
  devices d hd hd' := h.devices d hd' hd
  profiles p hp hp' := h.profiles p hp' hp
  members m hm hm' := h.members m hm' hm
  groups g hg hg' := h.groups g hg' hg

instance : Std.Symm Independent := ⟨fun _ _ => Independent.symm⟩

/-- The change names what an edit of it needs. -/
def Names (x : Change) : Edit → Prop
  | .save (.credential k d) => k ∈ x.keys ∧ d ∈ x.devices
  | .save (.deviceGroup d _) => d ∈ x.devices
  | .save (.profileGroup p _) => p ∈ x.profiles
  | .save (.groupOrg g _) => g ∈ x.placed?
  | .save (.role k _) => k.member ∈ x.memberIds
  | .remove (.credentials d) => d ∈ x.devices
  | .remove (.deviceGroup d) => d ∈ x.devices
  | .remove (.profileGroup p) => p ∈ x.profiles
  | .remove (.groupOrg g) => g ∈ x.placed?
  | .remove (.role k) => k.member ∈ x.memberIds

theorem names_of_mem_edits {q : Query} {e : Edit} (he : e ∈ x.edits q) : x.Names e := by
  cases x with
  | groupRemoved g ms =>
    rcases List.mem_cons.mp he with rfl | he
    · rfl
    · obtain ⟨m, hm, rfl⟩ := List.mem_map.mp he
      exact hm
  | memberRemoved m =>
    cases q with
    | role k =>
      by_cases hm : k.member = m
      · rw [edits_memberRemoved_role hm] at he
        obtain rfl := List.mem_singleton.mp he
        exact List.mem_singleton.mpr hm
      · rw [edits, if_neg hm] at he
        cases he
    | _ => cases he
  | deviceConnected k d g =>
    rcases List.mem_cons.mp he with rfl | he
    · exact ⟨List.mem_cons_self, List.mem_cons_self⟩
    · obtain rfl := List.mem_singleton.mp he
      exact List.mem_cons_self
  | keyRotated d k =>
    rcases List.mem_cons.mp he with rfl | he
    · exact List.mem_cons_self
    · obtain rfl := List.mem_singleton.mp he
      exact ⟨List.mem_cons_self, List.mem_cons_self⟩
  | deviceRemoved d =>
    rcases List.mem_cons.mp he with rfl | he
    · exact List.mem_cons_self
    · obtain rfl := List.mem_singleton.mp he
      exact List.mem_cons_self
  | groupAssigned g o =>
    obtain rfl := List.mem_singleton.mp he
    rfl
  | _ =>
    obtain rfl := List.mem_singleton.mp he
    exact List.mem_cons_self

/-- An edit of one change spares what an independent one saves. -/
theorem Independent.spares (h : x.Independent y) {e : Edit} {f : Fact} (he : x.Names e)
    (hf : y.Names (.save f)) : e.Spares f.query f.text := by
  cases e with
  | save f' =>
    intro hq
    cases f' <;> cases f <;> cases hq
    · exact h.keys _ he.1 hf.1
    · exact h.devices _ he hf
    · exact h.profiles _ he hf
    · exact h.groups _ he hf
    · exact h.members _ he hf
  | remove z =>
    cases z <;> cases f <;> try rfl
    · -- the key is saved for another device, whichever had it before
      refine decide_eq_false fun hd => h.devices _ he ?_
      rw [← Id.text_inj hd]
      exact hf.2
    · exact decide_eq_false fun hd => h.devices _ he (hd ▸ hf)
    · exact decide_eq_false fun hp => h.profiles _ he (hp ▸ hf)
    · exact decide_eq_false fun hg => h.groups _ he (hg ▸ hf)
    · exact decide_eq_false fun hk => h.members _ he (hk ▸ hf)

theorem Independent.apart (h : x.Independent y) {q : Query} {e e' : Edit} (he : e ∈ x.edits q)
    (he' : e' ∈ y.edits q) : e.Apart e' where
  left _ hf := h.symm.spares (names_of_mem_edits he') (hf ▸ names_of_mem_edits he)
  right _ hf := h.spares (names_of_mem_edits he) (hf ▸ names_of_mem_edits he')

theorem Independent.edits_comm (h : x.Independent y) (q : Query) (v : Option String) :
    Edit.run q (x.edits q) (Edit.run q (y.edits q) v) =
      Edit.run q (y.edits q) (Edit.run q (x.edits q) v) :=
  Edit.run_comm (fun _ he _ he' => h.apart he he') v

theorem run_flatMap (cs : List Change) (q : Query) (v : Option String) :
    Edit.run q (cs.flatMap (edits q)) v = cs.foldl (fun v c => Edit.run q (c.edits q) v) v := by
  induction cs generalizing v with
  | nil => rfl
  | cons c cs ih => rw [List.flatMap_cons, Edit.run_append, ih, List.foldl_cons]

/-- The order of changes that are independent in pairs makes no difference to any entry. -/
theorem run_perm {cs cs' : List Change} (hp : cs.Perm cs') (h : cs.Pairwise Independent)
    (q : Query) (v : Option String) :
    Edit.run q (cs.flatMap (edits q)) v = Edit.run q (cs'.flatMap (edits q)) v := by
  rw [run_flatMap, run_flatMap]
  refine hp.foldl_eq' (fun x hx y hy v => ?_) v
  by_cases hxy : x = y
  · rw [hxy]
  · exact ((h.forall hx hy hxy).edits_comm q v).symm

end Change

/-! ## In memory -/

namespace Memory

/-- Two changes, one applied after the other, each in a turn of its own. -/
def inTurn (deadline : Option Duration) (x y : Change) (w : World State) (how : Plan × Tour) :
    Outcome (World State) (Except CacheError Unit) :=
  let i : Invalidator (World State) := ⟨caches.inWorld deadline, how.2⟩
  (i.apply x >>= fun _ => (i.after 1).apply y).run { w with plan := how.1 }

theorem attempt_pair (deadline : Option Duration) (x y : Change) (w : World State)
    (how : Plan × Tour) : attempt deadline [x, y] w how = inTurn deadline x y w how := by
  let i : Invalidator (World State) := ⟨caches.inWorld deadline, how.2⟩
  have hlast : (i.after 1).applyAll [y] = (i.after 1).apply y :=
    bind_pure_unit (x := (i.after 1).apply y)
  show (i.apply x >>= fun _ => (i.after 1).applyAll [y]).run _ =
    (i.apply x >>= fun _ => (i.after 1).apply y).run _
  rw [hlast]

theorem tables_of_perm (deadline : Option Duration) {w : World State} (hw : view.good w)
    {cs cs' : List Change} (hp : cs.Perm cs') (hcs : cs.Pairwise Change.Independent)
    {how how' : Plan × Tour} (hok : (attempt deadline cs w how).value = .ok ())
    (hok' : (attempt deadline cs' w how').value = .ok ()) :
    (attempt deadline cs w how).state.tables = (attempt deadline cs' w how').state.tables := by
  have htraced := attempt_traced deadline cs hw how
  have htraced' := attempt_traced deadline cs' hw how'
  refine state_ext htraced.good.1 htraced'.good.1 ?_ ?_
  · funext q
    rw [facts_of_attempt_ok deadline cs hw hok, facts_of_attempt_ok deadline cs' hw hok',
      Change.run_perm hp hcs]
  · exact (congrArg Prod.snd htraced.rest).trans (congrArg Prod.snd htraced'.rest).symm

/-- Two independent changes come to the same tables in either order, and so do changes that are
independent in pairs in any order, whatever the tours. -/
theorem attempt_reordered (deadline : Option Duration) {w : World State} (hw : Reached w.tables) :
    (∀ (x y : Change) (how how' : Plan × Tour), x.Independent y →
      (inTurn deadline x y w how).value = .ok () → (inTurn deadline y x w how').value = .ok () →
        (inTurn deadline x y w how).state.tables = (inTurn deadline y x w how').state.tables) ∧
      ∀ (cs cs' : List Change) (how how' : Plan × Tour), cs.Perm cs' →
        cs.Pairwise Change.Independent → (attempt deadline cs w how).value = .ok () →
        (attempt deadline cs' w how').value = .ok () →
        (attempt deadline cs w how).state.tables = (attempt deadline cs' w how').state.tables := by
  have hgood := view_good hw.good
  refine ⟨fun x y how how' hxy hok hok' => ?_, fun cs cs' how how' hp hcs hok hok' => ?_⟩
  · rw [← attempt_pair] at hok hok' ⊢
    rw [← attempt_pair deadline y x]
    exact tables_of_perm deadline hgood (.swap y x []) (List.pairwise_pair.mpr hxy) hok hok'
  · exact tables_of_perm deadline hgood hp hcs hok hok'

/-- A key of a device that is removed goes over to another device. -/
theorem attempt_reordered_takenOver :
    let w : World State := {
      tables := ((caches.edit (.save (.credential ⟨"key"⟩ ⟨"old"⟩))).act empty).state }
    let x : Change := .keyRotated ⟨"new"⟩ ⟨"key"⟩
    let y : Change := .deviceRemoved ⟨"old"⟩
    let how : Plan × Tour := (.clear, .ascending)
    Reached w.tables ∧ x.Independent y ∧
      (inTurn none x y w how).state.tables = (inTurn none y x w how).state.tables := by
  intro w x y how
  have hw : Reached w.tables := .edit _ .empty
  have hxy : x.Independent y := ⟨by decide, by decide, by decide, by decide, by decide⟩
  exact ⟨hw, hxy, (attempt_reordered none hw).1 x y how how hxy rfl rfl⟩

end Memory

end AccessCache
