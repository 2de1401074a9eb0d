import AccessCache.Proofs.Session.Backend
import Mathlib.Logic.Function.Basic

/-!
# The effect of a change

Where no call fails, a change does to the facts exactly what it says (`Change.effect`), over every
backend and whatever order the groups of a member are gone through in, and the counters stay as
they are (`apply_effect`). On disk this needs texts that stand in places of their own.
-/

namespace AccessCache

/-! ## Effects -/

namespace Facts

/-- Without the keys of a device. -/
def withoutKeys (F : Facts) (d : DeviceId) : Facts
  | .credential k => if F (.credential k) = some d.text then none else F (.credential k)
  | q => F q

/-- Without the roles of some pairs. -/
def withoutRoles (F : Facts) (gone : RoleKey → Prop) [DecidablePred gone] : Facts
  | .role k => if gone k then none else F (.role k)
  | q => F q

variable (F : Facts)

theorem edit_save (f : Fact) : F.edit (.save f) = Function.update F f.query (some f.text) := by
  funext q
  rw [edit, Edit.on_of_target rfl, Function.update_apply]
  rfl

theorem edit_remove {x : Removal} {q : Query} (h : (Edit.remove x).target = some q) :
    F.edit (.remove x) = Function.update F q none := by
  funext q'
  rw [edit, Edit.on_of_target h, Function.update_apply]
  rfl

theorem edit_remove_credentials (d : DeviceId) :
    F.edit (.remove (.credentials d)) = F.withoutKeys d := by
  funext q
  cases q with
  | credential k => exact Edit.on_remove_credentials_eq d k _
  | _ => exact Edit.on_remove_of_not_takes fun _ => rfl

theorem withoutRoles_congr {gone gone' : RoleKey → Prop} [DecidablePred gone]
    [DecidablePred gone'] (h : ∀ k, gone k ↔ gone' k) :
    F.withoutRoles gone = F.withoutRoles gone' := by
  funext q
  cases q with
  | role k => simp only [withoutRoles, h]
  | _ => rfl

theorem withoutRoles_update (gone : RoleKey → Prop) [DecidablePred gone] (g : GroupId) :
    withoutRoles (Function.update F (.groupOrg g) none) gone =
      Function.update (F.withoutRoles gone) (.groupOrg g) none := by
  funext q
  cases q <;> simp [withoutRoles, Function.update_apply]

/-- Removing roles one by one. -/
theorem run_removeRoles (ks : List RoleKey) (q : Query) :
    Edit.run q (ks.map fun k => .remove (.role k)) (F q) = F.withoutRoles (· ∈ ks) q := by
  have hroles : ∀ e ∈ ks.map fun k => Edit.remove (.role k), ∃ k, e = .remove (.role k) := by
    intro e he
    obtain ⟨k, _, rfl⟩ := List.mem_map.mp he
    exact ⟨k, rfl⟩
  have hmem : ∀ k, Edit.remove (.role k) ∈ (ks.map fun k => Edit.remove (.role k)) ↔ k ∈ ks := by
    simp
  by_cases hq : ∃ k, q = .role k ∧ k ∈ ks
  · obtain ⟨k, rfl, hk⟩ := hq
    rw [Edit.run_roles_of_mem hroles ((hmem k).mpr hk)]
    exact (if_pos hk).symm
  · rw [Edit.run_roles_of_not_mem hroles fun k hk hmem' => hq ⟨k, hk, (hmem k).mp hmem'⟩]
    cases q with
    | role k => exact (if_neg fun hk => hq ⟨k, rfl, hk⟩).symm
    | _ => rfl

end Facts

/-- What a change does to the facts. -/
def Change.effect (F : Facts) : Change → Facts
  | .deviceConnected k d g =>
    Function.update (Function.update F (.credential k) (some d.text)) (.deviceGroup d) (some g.text)
  | .keyRotated d k => Function.update (F.withoutKeys d) (.credential k) (some d.text)
  | .deviceRemoved d => Function.update (F.withoutKeys d) (.deviceGroup d) none
  | .deviceReassigned d g => Function.update F (.deviceGroup d) (some g.text)
  | .profileAssigned p g => Function.update F (.profileGroup p) (some g.text)
  | .profileRemoved p => Function.update F (.profileGroup p) none
  | .groupAssigned g o => Function.update F (.groupOrg g) (some o.text)
  | .groupRemoved g ms =>
    Function.update (F.withoutRoles fun k => k.group = g ∧ k.member ∈ ms) (.groupOrg g) none
  | .roleAssigned g m r => Function.update F (.role ⟨g, m⟩) (some r.text)
  | .roleRevoked g m => Function.update F (.role ⟨g, m⟩) none
  | .memberRemoved m => F.withoutRoles fun k => k.member = m

theorem Change.mem_pairs (g : GroupId) (ms : List MemberId) (k : RoleKey) :
    k ∈ ms.map (⟨g, ·⟩) ↔ k.group = g ∧ k.member ∈ ms := by
  rw [List.mem_map]
  constructor
  · rintro ⟨m, hm, rfl⟩
    exact ⟨rfl, hm⟩
  · rintro ⟨rfl, hm⟩
    exact ⟨k.member, hm, rfl⟩

/-- The edits of a change come to its effect. -/
theorem Change.run_edits (F : Facts) (x : Change) (q : Query) :
    Edit.run q (x.edits q) (F q) = x.effect F q := by
  have two : ∀ {e e' : Edit} {G H : Facts}, F.edit e = G → G.edit e' = H →
      Edit.run q [e, e'] (F q) = H q := by
    rintro e e' _ _ rfl rfl
    rfl
  cases x with
  | deviceConnected k d g =>
    exact two (F.edit_save (.credential k d)) (Facts.edit_save _ (.deviceGroup d g))
  | keyRotated d k =>
    exact two (F.edit_remove_credentials d) (Facts.edit_save _ (.credential k d))
  | deviceRemoved d =>
    exact two (F.edit_remove_credentials d) (Facts.edit_remove _ (x := .deviceGroup d) rfl)
  | deviceReassigned d g => exact congrFun (F.edit_save (.deviceGroup d g)) q
  | profileAssigned p g => exact congrFun (F.edit_save (.profileGroup p g)) q
  | profileRemoved p => exact congrFun (F.edit_remove (x := .profileGroup p) rfl) q
  | groupAssigned g o => exact congrFun (F.edit_save (.groupOrg g o)) q
  | groupRemoved g ms =>
    have hroles := (F.edit (.remove (.groupOrg g))).run_removeRoles (ms.map (⟨g, ·⟩)) q
    rw [List.map_map] at hroles
    refine hroles.trans ?_
    rw [F.edit_remove (x := .groupOrg g) rfl, Facts.withoutRoles_update,
      Facts.withoutRoles_congr F (mem_pairs g ms)]
    rfl
  | roleAssigned g m r => exact congrFun (F.edit_save (.role ⟨g, m⟩ r)) q
  | roleRevoked g m => exact congrFun (F.edit_remove (x := .role ⟨g, m⟩) rfl) q
  | memberRemoved m =>
    cases q with
    | role k =>
      by_cases hk : k.member = m
      · rw [edits_memberRemoved_role hk, Edit.run_cons, Edit.on_remove_role, if_pos rfl]
        exact (if_pos hk).symm
      · rw [edits, if_neg hk]
        exact (if_neg hk).symm
    | _ => rfl

namespace Session

/-- A change of which no call fails has exactly its effect: every entry is as it says, those that
it does not mention as they were, and so are the counters. -/
theorem apply_effect {setup : Setup} {b : Backend} (hb : setup.backend.1 = .ok b)
    {known : String → Prop}
    (hapart : ∀ r, b.hasDatabases r → ∀ s t, known s → known t → Key.part s = Key.part t → s = t)
    {σ : Type} {c : Caches σ} {tables : σ → b.State} (hc : c.Over b.caches tables) {s : σ}
    (hs : b.Reached known (tables s)) (tour : Tour) {x : Change} (hx : ∀ t ∈ x.texts, known t) :
    let i : Invalidator σ := ⟨c, tour⟩
    let o := (i.apply x).run s
    (∀ y ∈ ((i.recorded.apply x).run ⟨s, []⟩).state.exchanges, y.error? = none) →
      o.value = .ok () ∧
        b.caches.facts (tables o.state) = x.effect (b.caches.facts (tables s)) ∧
        b.caches.counters (tables o.state) = b.caches.counters (tables s) := by
  intro i o hok
  obtain ⟨good, shared, hregular, hkeeps, hreached⟩ := Backend.exists_regular hb hapart
  have hvalue : o.value = .ok () := by
    obtain ⟨htried, _⟩ := hc.apply_tried (Backend.steady hb) tour x s
    rcases htried.stops with ⟨hvalue, _⟩ | ⟨before, y, err, hxs, _, hy, _⟩
    · exact hvalue
    · have hnone := hok y (hxs ▸ List.mem_append_right before List.mem_cons_self)
      cases hnone.symm.trans hy
  have htraced :
      ((b.caches.view good shared known).around tables).Traced s (fun q => x.edits q) o :=
    View.Serves.apply_traced (i := i) (hc.serves hregular) (hreached _ hs)
      fun e he t ht => hx t (Change.mem_texts he ht)
  refine ⟨hvalue, ?_, htraced.rest⟩
  funext q
  obtain ⟨ys, _, hall, hkept⟩ := htraced.facts q
  rw [hall () hvalue] at hkept
  exact (hkept.eq_of_not hkeeps).trans (Change.run_edits _ x q)

/-- A device takes over the key of another in place of its own. -/
theorem apply_effect_takenOver :
    let d : DeviceId := ⟨"device"⟩
    let k : CredentialKey := ⟨"key"⟩
    let before : List Edit := [.save (.credential ⟨"old"⟩ d), .save (.credential k ⟨"other"⟩)]
    let w : World Memory.State := { tables := Memory.caches.after before Memory.empty }
    let i : Invalidator (World Memory.State) := ⟨Memory.caches.inWorld none, .ascending⟩
    let o := (i.apply (.keyRotated d k)).run w
    ({} : Setup).backend.1 = .ok (.memory [] false) ∧
      i.caches.Over Memory.caches World.tables ∧
      (Backend.memory [] false).Reached (fun _ => True) w.tables ∧ o.value = .ok () ∧
      Memory.caches.facts w.tables (.credential k) = some "other" ∧
      Memory.caches.facts o.state.tables (.credential k) = some "device" ∧
      Memory.caches.facts o.state.tables (.credential ⟨"old"⟩) = none := by
  intro d k before w i o
  have hbackend : ({} : Setup).backend.1 = .ok (.memory [] false) := rfl
  have hover : i.caches.Over Memory.caches World.tables := Memory.caches.over_inWorld none
  have hreached : (Backend.memory [] false).Reached (fun _ => True) w.tables :=
    .edit (fun _ _ => trivial) (.edit (fun _ _ => trivial) .fresh)
  have hcalls : ((i.recorded.apply (.keyRotated d k)).run ⟨w, []⟩).state.exchanges =
      [.edit (.remove (.credentials d)) (.ok ()), .edit (.save (.credential k d)) (.ok ())] := rfl
  have hnone : ∀ y ∈ ((i.recorded.apply (.keyRotated d k)).run ⟨w, []⟩).state.exchanges,
      y.error? = none := by
    rw [hcalls]
    simp [Exchange.error?, Exchange.errorOf]
  obtain ⟨hvalue, hfacts, _⟩ := apply_effect hbackend nofun hover hreached .ascending
    (x := .keyRotated d k) (fun _ _ => trivial) hnone
  have hafter : Memory.caches.facts o.state.tables =
      (Change.keyRotated d k).effect (Memory.caches.facts w.tables) := hfacts
  rw [hafter]
  exact ⟨hbackend, hover, hreached, hvalue, by decide, rfl, by decide⟩

end Session

end AccessCache
