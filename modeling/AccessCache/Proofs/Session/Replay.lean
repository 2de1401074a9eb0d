import AccessCache.Proofs.Memory.Tables
import AccessCache.Proofs.Session.View

/-!
# Replaying changes

Changes that were cut short may be applied again from the first. An attempt has made some of the
edits of the changes, and making all of them afterwards absorbs these (`Edit.run_absorb`), so
however often it is tried, the caches in memory end as if nothing had failed (`applyAll_replay`).
-/

namespace AccessCache.Memory

/-- The states that calls lead to. -/
inductive Reached : State → Prop where
  | empty : Reached empty
  | lookup {s : State} (q : Query) : Reached s → Reached ((caches.lookup q).act s).state
  | edit {s : State} (e : Edit) : Reached s → Reached ((caches.edit e).act s).state
  | memberships {s : State} (m : MemberId) :
    Reached s → Reached ((caches.roles.membershipsOf m).act s).state

theorem Reached.good {s : State} (h : Reached s) : Good s := by
  induction h with
  | empty => exact good_empty
  | lookup q _ ih => exact regular.lookup_good ih q
  | edit e _ ih => exact regular.edit_good ih e
  | memberships m _ ih =>
    obtain ⟨_, _, hsame, _⟩ := regular.memberships ih m
    rw [hsame]
    exact ih

/-- One attempt to apply changes, under a plan and with a tour of its own. -/
def attempt (deadline : Option Duration) (cs : List Change) (w : World State)
    (how : Plan × Tour) : Outcome (World State) (Except CacheError Unit) :=
  ((⟨caches.inWorld deadline, how.2⟩ : Invalidator (World State)).applyAll cs).run
    { w with plan := how.1 }

/-- The facts of a world with caches in memory. -/
abbrev view : View (World State) (Registry × (Relation → Counters)) :=
  World.view caches Good Eq fun _ => True

variable (deadline : Option Duration) (cs : List Change) {w : World State}

theorem view_good (h : Good w.tables) : view.good w := ⟨h, Facts.known_true _⟩

theorem attempt_traced (h : view.good w) (how : Plan × Tour) :
    view.Traced { w with plan := how.1 } (fun q => cs.flatMap (Change.edits q))
      (attempt deadline cs w how) := by
  have hserves : view.Serves (caches.inWorld deadline) :=
    World.view_serves regular (Tables.prompt _ _ _)
  have hplanned : view.good { w with plan := how.1 } := h
  exact View.Serves.applyAll_traced (i := ⟨caches.inWorld deadline, how.2⟩) hserves hplanned
    fun _ _ _ _ _ _ => trivial

/-- Any number of attempts have made some of the edits. -/
theorem attempts_facts (h : view.good w) (attempts : List (Plan × Tour)) :
    let w' := attempts.foldl (fun w a => (attempt deadline cs w a).state) w
    view.good w' ∧ caches.counters w'.tables = caches.counters w.tables ∧
      ∀ q, ∃ ys, ys ⊆ cs.flatMap (Change.edits q) ∧
        caches.facts w'.tables q = Edit.run q ys (caches.facts w.tables q) := by
  induction attempts generalizing w with
  | nil => exact ⟨h, rfl, fun q => ⟨[], List.nil_subset _, rfl⟩⟩
  | cons a attempts ih =>
    have ha : view.Traced { w with plan := a.1 } _ (attempt deadline cs w a) :=
      attempt_traced deadline cs h a
    obtain ⟨hgood, hcounters, hfacts⟩ := ih ha.good
    refine ⟨hgood, hcounters.trans (congrArg Prod.snd ha.rest), fun q => ?_⟩
    obtain ⟨ys, hys, _, hkept⟩ := ha.facts q
    obtain ⟨zs, hzs, hrun⟩ := hfacts q
    refine ⟨ys ++ zs, List.append_subset.mpr ⟨hys, hzs⟩, ?_⟩
    rw [Edit.run_append]
    refine hrun.trans (congrArg _ ?_)
    exact hkept.eq_of_not (not_lossy_eq _)

/-- An attempt that succeeds has made all edits. -/
theorem facts_of_attempt_ok (h : view.good w) {how : Plan × Tour}
    (hok : (attempt deadline cs w how).value = .ok ()) (q : Query) :
    caches.facts (attempt deadline cs w how).state.tables q =
      Edit.run q (cs.flatMap (Change.edits q)) (caches.facts w.tables q) := by
  obtain ⟨ys, _, hall, hkept⟩ := (attempt_traced deadline cs h how).facts q
  rw [hall () hok] at hkept
  exact hkept.eq_of_not (not_lossy_eq _)

/-- Without interference an attempt succeeds. -/
theorem attempt_clear (h : view.good w) (tour : Tour) :
    (attempt deadline cs w (.clear, tour)).value = .ok () := by
  obtain ⟨⟨_, hok⟩, _⟩ := (attempt_traced deadline cs h (.clear, tour)).calm
    ⟨total, rfl⟩
  exact hok

/-- However often changes were cut short, applying them once more from the first leaves the tables
as applying them once would have left them, whatever the tours; and without interference they are
not cut short again. -/
theorem applyAll_replay (deadline : Option Duration) (cs : List Change)
    (attempts : List (Plan × Tour)) (w : World State) (hw : Reached w.tables) :
    let w' := attempts.foldl (fun w a => (attempt deadline cs w a).state) w
    (∀ tour, (attempt deadline cs w' (.clear, tour)).value = .ok ()) ∧
      ∀ how tour, (attempt deadline cs w' how).value = .ok () →
        (attempt deadline cs w' how).state.tables =
          (attempt deadline cs w (.clear, tour)).state.tables := by
  have hgood := view_good hw.good
  obtain ⟨hgood', hcounters, hfacts⟩ := attempts_facts deadline cs hgood attempts
  refine ⟨fun tour => attempt_clear deadline cs hgood' tour, fun how tour hok => ?_⟩
  have hagain := attempt_traced deadline cs hgood' how
  have honce := attempt_traced deadline cs hgood (.clear, tour)
  refine state_ext hagain.good.1 honce.good.1 ?_ ?_
  · funext q
    rw [facts_of_attempt_ok deadline cs hgood' hok,
      facts_of_attempt_ok deadline cs hgood (attempt_clear deadline cs hgood tour)]
    obtain ⟨ys, hys, hrun⟩ := hfacts q
    rw [hrun, Edit.run_absorb hys]
  · exact (congrArg Prod.snd hagain.rest).trans
      (hcounters.trans (congrArg Prod.snd honce.rest).symm)

/-- A group whose second removal fails, tried twice and then carried over. -/
theorem applyAll_replay_cutShort :
    let w : World State :=
      { tables := ((caches.edit (.save (.role ⟨⟨"group"⟩, ⟨"ann"⟩⟩ ⟨"editor"⟩))).act empty).state }
    let cs : List Change := [.groupRemoved ⟨"group"⟩ [⟨"ann"⟩, ⟨"bob"⟩]]
    let how : Plan × Tour :=
      (Plan.clear.withFault .role [.remove] (some ⟨.unavailable "down", 1, none⟩), .ascending)
    Reached w.tables ∧
      (attempt none cs w how).value = .error (.unavailable .role (.reported "down")) ∧
      (attempt none cs (attempt none cs (attempt none cs w how).state how).state
          (.clear, .ascending)).state.tables =
        (attempt none cs w (.clear, .ascending)).state.tables := by
  intro w cs how
  have hw : Reached w.tables := .edit _ .empty
  have hreplay := applyAll_replay none cs [how, how] w hw
  exact ⟨hw, rfl, hreplay.2 (.clear, .ascending) .ascending (hreplay.1 .ascending)⟩

end AccessCache.Memory
