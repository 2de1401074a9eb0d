import AccessCache.Proofs.Session.Backend

/-!
# Changes that are cut short

Over the caches of any backend, whatever they hold and whichever calls fail: a change makes its
calls up to the first that fails, and one that takes something back adds nothing to the facts when
it is cut short (`apply_cutShort`). What is taken back goes before what is granted, so up to a
failure there were only removals.
-/

namespace AccessCache.Session

/-- A change succeeds if all its calls do, and otherwise ends with the first that fails, the tables
as the calls before it left them. If the change takes something back, no fact is then new or
different. Several changes end with the first that fails, those before it applied to the end. -/
theorem apply_cutShort {setup : Setup} {b : Backend} (hb : setup.backend.1 = .ok b) {σ : Type}
    {c : Caches σ} {tables : σ → b.State} (hc : c.Over b.caches tables) (tour : Tour) :
    let i : Invalidator σ := ⟨c, tour⟩
    (∀ x s,
      let o := (i.apply x).run s
      let o' := (i.recorded.apply x).run ⟨s, []⟩
      let xs := o'.state.exchanges
      (o'.value = o.value ∧ o'.journal = o.journal ∧ o'.state.state = o.state) ∧
        x.Tried tour xs o.value ∧ Stops xs o.value ∧
        tables o.state = b.caches.after (xs.filterMap Exchange.done?) (tables s)) ∧
    (∀ x s err, x.revokes → ((i.apply x).run s).value = .error err →
      (b.caches.facts (tables ((i.apply x).run s).state)).Within (b.caches.facts (tables s))) ∧
    ∀ xs s,
      let o := (i.applyAll xs).run s
      (o.value = .ok () ∧ i.Applied xs s o.state) ∨
        ∃ before x after t err, xs = before ++ x :: after ∧ i.Applied before s t ∧
          let failed := ((i.after before.length).apply x).run t
          failed.value = .error err ∧ o.value = .error err ∧ o.state = failed.state := by
  intro i
  have hsteady := Backend.steady hb
  refine ⟨fun x s => ?_, fun x s err hx hfail => ?_, i.applyAll_applied⟩
  · obtain ⟨htried, htables⟩ := hc.apply_tried hsteady tour x s
    exact ⟨i.apply_recorded x s, htried, htried.stops, htables⟩
  · obtain ⟨htried, htables⟩ := hc.apply_tried hsteady tour x s
    rw [hfail] at htried
    rw [htables]
    exact hsteady.after_within (htried.removals hx) _

/-- A group with two members is removed, and the second role cannot be: the organisation and the
first role are gone, and the second role is still there. -/
theorem apply_cutShort_secondRole :
    let g : GroupId := ⟨"group"⟩
    let x : Change := .groupRemoved g [⟨"a"⟩, ⟨"b"⟩]
    let tables : Memory.State := Memory.caches.after [.save (.groupOrg g ⟨"org"⟩),
      .save (.role ⟨g, ⟨"a"⟩⟩ ⟨"admin"⟩), .save (.role ⟨g, ⟨"b"⟩⟩ ⟨"guest"⟩)] Memory.empty
    let down : Plan := Plan.clear.withFault .role [.remove] (some ⟨.unavailable "down", 1, none⟩)
    let w : World Memory.State := { tables := tables, plan := down }
    let o := ((⟨Memory.caches.inWorld none, .ascending⟩ :
      Invalidator (World Memory.State)).apply x).run w
    (({} : Setup).backend.1 = .ok (.memory [] false)) ∧
      (Memory.caches.inWorld none).Over Memory.caches World.tables ∧
      o.value = .error (.unavailable .role (.reported "down")) ∧
      Memory.caches.facts o.state.tables (.groupOrg g) = none ∧
      Memory.caches.facts o.state.tables (.role ⟨g, ⟨"a"⟩⟩) = none ∧
      Memory.caches.facts o.state.tables (.role ⟨g, ⟨"b"⟩⟩) = some "guest" ∧
      (Memory.caches.facts o.state.tables).Within (Memory.caches.facts tables) := by
  intro g x tables down w o
  have hbackend : ({} : Setup).backend.1 = .ok (.memory [] false) := rfl
  have hover : (Memory.caches.inWorld none).Over Memory.caches World.tables :=
    Memory.caches.over_inWorld none
  have hfail : o.value = .error (.unavailable .role (.reported "down")) := by decide
  have hwithin := (apply_cutShort hbackend hover .ascending).2.1 x w _ rfl hfail
  exact ⟨hbackend, hover, hfail, by decide, by decide, by decide, hwithin⟩

end AccessCache.Session
