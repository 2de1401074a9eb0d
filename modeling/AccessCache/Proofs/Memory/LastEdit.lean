import AccessCache.Proofs.Memory.Tables

/-!
# The last edit of a pair

Entries that are removed by name hold what the last edit of theirs wrote (`Edit.run_eq_last`). So a
pair has a role in memory where its last edit saved one, and the groups of a member, both as
answered and in the index, are those in which it has one (`resolve_eq_ok_iff_last`).
-/

namespace AccessCache

/-! ## Last edits -/

namespace Edit

/-- The last of the edits that write to the entry of `q`. -/
def last (q : Query) (es : List Edit) : Option Edit :=
  (es.filter fun e => e.target = some q).getLast?

variable {q : Query}

theorem last_cons (e : Edit) (es : List Edit) :
    last q (e :: es) = (last q es).or (if e.target = some q then some e else none) := by
  unfold last
  by_cases he : e.target = some q
  · rw [List.filter_cons_of_pos (by simpa using he), List.getLast?_cons, if_pos he]
    cases (es.filter fun e => e.target = some q).getLast? <;> rfl
  · rw [List.filter_cons_of_neg (by simpa using he), if_neg he, Option.or_none]

theorem target_of_last {es : List Edit} {e : Edit} (h : last q es = some e) :
    e.target = some q := by
  have hmem := List.mem_of_getLast? h
  rw [List.mem_filter, decide_eq_true_iff] at hmem
  exact hmem.2

/-- Only credentials go without being named. -/
theorem on_eq_ite (hq : q.relation ≠ .credential) (e : Edit) (v : Option String) :
    e.on q v = if e.target = some q then e.written else v := by
  cases htarget : e.target with
  | some q' =>
    rw [on_of_target htarget]
    simp only [Option.some.injEq, @eq_comm _ q q']
  | none =>
    rw [if_neg nofun]
    cases e with
    | save f => cases htarget
    | remove x =>
      cases x with
      | credentials d =>
        refine on_remove_of_not_takes fun t => ?_
        cases q with
        | credential k => exact absurd rfl hq
        | _ => rfl
      | _ => cases htarget

/-- An entry holds what its last edit wrote. -/
theorem run_eq_last (hq : q.relation ≠ .credential) (es : List Edit) (v : Option String) :
    run q es v = (last q es).elim v written := by
  induction es generalizing v with
  | nil => rfl
  | cons e es ih =>
    rw [run_cons, ih, on_eq_ite hq, last_cons]
    cases last q es with
    | some e' => rfl
    | none => by_cases he : e.target = some q <;> simp [he]

theorem run_role_eq_some_iff (es : List Edit) (k : RoleKey) (role : Role) :
    run (.role k) es none = some role.text ↔ last (.role k) es = some (.save (.role k role)) := by
  have hk : (Query.role k).relation ≠ .credential := nofun
  rw [run_eq_last hk]
  constructor
  · intro h
    cases hlast : last (.role k) es with
    | none =>
      rw [hlast] at h
      cases h
    | some e =>
      rw [hlast] at h
      have htarget := target_of_last hlast
      cases e with
      | remove x => cases h
      | save f =>
        cases f with
        | role k' role' =>
          cases htarget
          cases Id.text_inj (Option.some.inj h)
          rfl
        | _ => cases htarget
  · intro h
    rw [h]
    rfl

end Edit

/-! ## Roles in memory -/

namespace Memory

/-- A bucket lists the groups of its member, and a member without groups has none. -/
theorem Roles.Mirrored.groups_getElem? {t : Roles} (h : t.Mirrored) (m : MemberId) :
    (∀ b, t.groups[m]? = some b → b.isEmpty = false ∧
        ∀ g, g ∈ b ↔ (t.roles[(⟨g, m⟩ : RoleKey)]?).isSome) ∧
      (t.groups[m]? = none ↔ ∀ g, t.roles[(⟨g, m⟩ : RoleKey)]? = none) := by
  constructor
  · intro b hb
    refine ⟨h.tidy m b hb, fun g => ?_⟩
    rw [← Index.bucket_of_getElem? hb]
    exact h.mem m g
  · rw [h.tidy.getElem?_eq_none_iff, Std.ExtTreeSet.eq_empty_iff_forall_not_mem]
    refine forall_congr' fun g => ?_
    rw [h.mem, Option.not_isSome_iff_eq_none]

/-- After any edits a pair has the role that its last edit saved, and is not found where that edit
removed it or there is none; the groups of a member are those of the pairs found; and the index has
a bucket for each member of such a pair, with these groups, and for no other member. -/
theorem resolve_eq_ok_iff_last (es : List Edit) :
    let c := caches.roles
    let s := caches.after es empty
    let groups := s.roles.table.groups
    let assigned (g : GroupId) (m : MemberId) : Prop :=
      ∃ role, Edit.last (.role ⟨g, m⟩) es = some (.save (.role ⟨g, m⟩ role))
    (∀ k role, ((c.resolve k).act s).value = .ok role ↔
        Edit.last (.role k) es = some (.save (.role k role))) ∧
      (∀ g m, ((c.resolve ⟨g, m⟩).act s).value =
        .error (.notFound .role (RoleKey.text ⟨g, m⟩)) ↔ ¬ assigned g m) ∧
      (∀ m, ∃ gs, ((c.membershipsOf m).act s).value = .ok gs ∧ ∀ g, g ∈ gs ↔ assigned g m) ∧
      (∀ (m : MemberId) (b : GroupSet), groups[m]? = some b →
        b.isEmpty = false ∧ ∀ g, g ∈ b ↔ assigned g m) ∧
      ∀ m : MemberId, groups[m]? = none ↔ ∀ g, ¬ assigned g m := by
  intro c s groups assigned
  have hgood : Good s := regular.after_good good_empty es
  have hfacts : caches.facts s = fun q => Edit.run q es none := by
    rw [regular.facts_after total (not_lossy_eq _) good_empty, facts_empty]
  have hvalue : ∀ k, ((c.resolve k).act s).value =
      (Query.role k).reply (Edit.run (.role k) es none) := fun k =>
    (regular.lookup_value hgood (.role k)).trans (congrArg _ (congrFun hfacts _))
  have hassigned : ∀ g m, (Edit.run (.role ⟨g, m⟩) es none).isSome ↔ assigned g m := by
    intro g m
    rw [Option.isSome_iff_exists]
    constructor
    · rintro ⟨t, ht⟩
      exact ⟨⟨t⟩, (Edit.run_role_eq_some_iff es ⟨g, m⟩ ⟨t⟩).mp ht⟩
    · rintro ⟨role, hrole⟩
      exact ⟨role.text, (Edit.run_role_eq_some_iff es ⟨g, m⟩ role).mpr hrole⟩
  have hroles : ∀ g m, (s.roles.table.roles[(⟨g, m⟩ : RoleKey)]?).isSome ↔ assigned g m := by
    intro g m
    have hview := congrFun ((facts_eq hgood).symm.trans hfacts) (.role ⟨g, m⟩)
    rw [← hassigned, ← hview]
    exact (Option.isSome_map ..).symm ▸ Iff.rfl
  refine ⟨fun k role => ?_, fun g m => ?_, fun m => ?_, fun m b hb => ?_, fun m => ?_⟩
  · rw [hvalue, ← Edit.run_role_eq_some_iff]
    exact Query.reply_eq_ok_iff
  · rw [hvalue, ← hassigned]
    cases Edit.run (.role ⟨g, m⟩) es none with
    | none => exact iff_of_true rfl nofun
    | some t => exact iff_of_false nofun (not_not_intro rfl)
  · obtain ⟨gs, hgs, _, hmem⟩ := regular.memberships hgood m
    refine ⟨gs, hgs, fun g => ?_⟩
    rw [hmem, hfacts, hassigned]
  · obtain ⟨hne, hmem⟩ := (hgood.roles.groups_getElem? m).1 b hb
    exact ⟨hne, fun g => (hmem g).trans (hroles g m)⟩
  · rw [(hgood.roles.groups_getElem? m).2]
    refine forall_congr' fun g => ?_
    rw [← hroles, Option.not_isSome_iff_eq_none]

end Memory

end AccessCache
