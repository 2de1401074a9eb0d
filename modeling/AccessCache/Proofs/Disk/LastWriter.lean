import AccessCache.Proofs.Disk.Tables

/-!
# The last writer

Caches on disk beside a plain map, under the same edits. Digests may coincide, which makes the
caches forget, but what they answer is what was written last (`lookup_lastWriter`).
-/

namespace AccessCache

variable {σ : Type}

/-- What a state and a plain map come to under edits; the map leaves out an edit that fails. -/
def Caches.drive (c : Caches σ) : List Edit → σ → Facts → σ × Facts
  | [], s, F => (s, F)
  | e :: es, s, F =>
    match ((c.edit e).act s).value with
    | .ok () => c.drive es ((c.edit e).act s).state (F.edit e)
    | .error _ => c.drive es ((c.edit e).act s).state F

namespace Caches.Regular

variable {c : Caches σ} {good : σ → Prop} {shared : String → String → Prop} {s : σ} {F : Facts}

/-- A state keeps within the map along a run. -/
theorem drive_within (h : c.Regular good shared) (hs : good s) (hF : (c.facts s).Within F)
    (es : List Edit) :
    good (c.drive es s F).1 ∧ (c.facts (c.drive es s F).1).Within (c.drive es s F).2 := by
  induction es generalizing s F with
  | nil => exact ⟨hs, hF⟩
  | cons e es ih =>
    unfold Caches.drive
    rcases h.edit hs e with ⟨hvalue, hgood, heffect, _⟩ | ⟨⟨err, hvalue⟩, hstate⟩
    · rw [hvalue]
      exact ih hgood (heffect.within.trans (hF.edit e))
    · rw [hvalue, hstate]
      exact ih hs hF

/-- Where no edit fails the map is that of all edits. -/
theorem drive_total (h : c.Regular good shared) (ht : c.Total good) (hs : good s)
    (es : List Edit) : (c.drive es s F).2 = fun q => Edit.run q es (F q) := by
  induction es generalizing s F with
  | nil => rfl
  | cons e es ih =>
    unfold Caches.drive
    rcases h.edit hs e with ⟨hvalue, hgood, _⟩ | ⟨⟨err, hvalue⟩, _⟩
    · rw [hvalue]
      exact ih hgood
    · rw [ht hs e] at hvalue
      cases hvalue

/-- What was saved is found directly after. -/
theorem lookup_save (h : c.Regular good shared) (hs : good s) {f : Fact}
    (hvalue : ((c.save f).act s).value = .ok ()) :
    ((c.lookup f.query).act ((c.save f).act s).state).value = .ok ⟨f.text⟩ := by
  rcases h.edit hs (.save f) with ⟨_, hgood, heffect, _⟩ | ⟨⟨err, hfail⟩, _⟩
  · show ((c.lookup f.query).act ((c.edit (.save f)).act s).state).value = _
    rw [h.lookup_value hgood]
    rcases heffect f.query with heq | ⟨_, q', hq', hne, _⟩
    · rw [heq, Edit.on_save_self]
      rfl
    · exact absurd (Option.some.inj hq').symm hne
  · rw [show ((c.edit (.save f)).act s).value = .ok () from hvalue] at hfail
    cases hfail

end Caches.Regular

namespace Disk

/-- Whatever digests coincide: a lookup finds what the plain map has, the groups of a member are
among those of the plain map, and what was saved is found directly after. -/
theorem lookup_lastWriter (capacity : Option Nat) (edits : List Edit) :
    let (s, F) := (caches capacity).drive edits empty fun _ => none
    (∀ q v, (((caches capacity).lookup q).act s).value = .ok v → F q = some v.text) ∧
      (∀ m, ∃ gs, (((caches capacity).roles.membershipsOf m).act s).value = .ok gs ∧
        ∀ g ∈ gs, (F (.role ⟨g, m⟩)).isSome) ∧
      (∀ f, (((caches capacity).save f).act s).value = .ok () →
        (((caches capacity).lookup f.query).act (((caches capacity).save f).act s).state).value =
          .ok ⟨f.text⟩) ∧
      (capacity = none → F = fun q => Edit.run q edits none) := by
  have hempty : ((caches capacity).facts empty).Within fun _ => none := by
    rw [facts_empty]
    exact nofun
  obtain ⟨hgood, hwithin⟩ := (regular capacity).drive_within good_empty hempty edits
  refine ⟨fun q v hv => ?_, fun m => ?_, fun f hf => ?_, ?_⟩
  · exact hwithin q _ (Caches.facts_of_lookup hv)
  · obtain ⟨gs, hgs, _, hmem⟩ := (regular capacity).memberships hgood m
    refine ⟨gs, hgs, fun g hg => ?_⟩
    obtain ⟨r, hr⟩ := Option.isSome_iff_exists.mp ((hmem g).mp hg)
    exact Option.isSome_of_eq_some (hwithin _ r hr)
  · exact (regular capacity).lookup_save hgood hf
  · rintro rfl
    exact (regular none).drive_total total good_empty edits

end Disk

end AccessCache
