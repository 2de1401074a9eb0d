import AccessCache.Proofs.Memory.Tables

/-!
# Credentials saved last

A key belongs to the device that it was saved for last, until that device is removed
(`resolve_eq_ok_iff_savedLast`). Removals go by the index, which lists the keys of every device
that has any.
-/

namespace AccessCache.Memory

/-- The edits save `k` for `d`, and thereafter neither save `k` again nor remove `d`. -/
def SavedLast (es : List Edit) (k : CredentialKey) (d : DeviceId) : Prop :=
  ∃ before after, es = before ++ .save (.credential k d) :: after ∧
    (∀ d', .save (.credential k d') ∉ after) ∧ .remove (.credentials d) ∉ after

variable {k : CredentialKey} {d : DeviceId}

theorem spares_credential_iff (e : Edit) :
    e.Spares (.credential k) d.text ↔
      (∀ d', e ≠ .save (.credential k d')) ∧ e ≠ .remove (.credentials d) := by
  cases e with
  | save f => cases f <;> simp [Edit.Spares, Fact.query]
  | remove x =>
    cases x with
    | credentials d' =>
      have htext : d.text = d'.text ↔ d' = d := ⟨fun h => (Id.text_inj h).symm, fun h => h ▸ rfl⟩
      simp [Edit.Spares, Removal.takes, htext]
    | _ => simp [Edit.Spares, Removal.takes]

theorem forall_spares_credential_iff (es : List Edit) :
    (∀ e ∈ es, e.Spares (.credential k) d.text) ↔
      (∀ d', .save (.credential k d') ∉ es) ∧ .remove (.credentials d) ∉ es := by
  simp only [spares_credential_iff]
  constructor
  · intro h
    exact ⟨fun d' hmem => (h _ hmem).1 d' rfl, fun hmem => (h _ hmem).2 rfl⟩
  · rintro ⟨hsave, hremove⟩ e he
    refine ⟨fun d' heq => hsave d' (heq ▸ he), fun heq => hremove (heq ▸ he)⟩

theorem run_credential_eq_some_iff (es : List Edit) :
    Edit.run (.credential k) es none = some d.text ↔ SavedLast es k d := by
  rw [Edit.run_eq_some_iff]
  constructor
  · rintro (⟨hnone, _⟩ | ⟨before, f, after, rfl, hq, ht, hafter⟩)
    · cases hnone
    · cases f with
      | credential k' d' =>
        cases hq
        cases Id.text_inj ht
        exact ⟨before, after, rfl, (forall_spares_credential_iff after).mp hafter⟩
      | _ => cases hq
  · rintro ⟨before, after, rfl, hafter⟩
    exact .inr ⟨before, _, after, rfl, rfl, rfl, (forall_spares_credential_iff after).mpr hafter⟩

/-- A bucket lists the keys of its device, and a device without keys has none. -/
theorem Credentials.Mirrored.keys_getElem? {t : Credentials} (h : t.Mirrored) (d : DeviceId) :
    (∀ b, t.keys[d]? = some b → ∀ k, k ∈ b ↔ t.devices[k]? = some d) ∧
      (t.keys[d]? = none ↔ ∀ k : CredentialKey, t.devices[k]? ≠ some d) := by
  constructor
  · intro b hb k
    rw [← Index.bucket_of_getElem? hb]
    exact h.mem d k
  · rw [h.tidy.getElem?_eq_none_iff, Std.ExtTreeSet.eq_empty_iff_forall_not_mem]
    exact forall_congr' fun k => not_congr (h.mem d k)

/-- After any edits a key is found with the device that it was saved for last, unless that was
removed since, and is not found otherwise; and the index lists the keys of each device. -/
theorem resolve_eq_ok_iff_savedLast (es : List Edit) :
    let s := caches.after es empty
    let t := s.credentials.table
    (∀ k d, ((caches.credentials.resolve k).act s).value = .ok d ↔ SavedLast es k d) ∧
      (∀ k, ((caches.credentials.resolve k).act s).value =
        .error (.notFound .credential CredentialKey.placeholder) ↔ ∀ d, ¬ SavedLast es k d) ∧
      (∀ (d : DeviceId) (b : Std.ExtTreeSet CredentialKey), t.keys[d]? = some b →
        ∀ k, k ∈ b ↔ t.devices[k]? = some d) ∧
      ∀ d : DeviceId, t.keys[d]? = none ↔ ∀ k : CredentialKey, t.devices[k]? ≠ some d := by
  intro s t
  have hgood : Good s := regular.after_good good_empty es
  have hvalue : ∀ k, ((caches.credentials.resolve k).act s).value =
      (Query.credential k).reply (Edit.run (.credential k) es none) := by
    intro k
    refine (regular.lookup_value hgood (.credential k)).trans (congrArg _ ?_)
    rw [regular.facts_after total (not_lossy_eq _) good_empty, facts_empty]
  have hok : ∀ k d, ((caches.credentials.resolve k).act s).value = .ok d ↔ SavedLast es k d := by
    intro k d
    rw [hvalue, ← run_credential_eq_some_iff]
    exact Query.reply_eq_ok_iff
  refine ⟨hok, fun k => ?_, fun d => (hgood.credentials.keys_getElem? d).1,
    fun d => (hgood.credentials.keys_getElem? d).2⟩
  constructor
  · intro hmiss d hd
    cases ((hok k d).mpr hd).symm.trans hmiss
  · intro hk
    cases hrun : Edit.run (.credential k) es none with
    | none =>
      rw [hvalue, hrun]
      rfl
    | some v => exact absurd ((run_credential_eq_some_iff es).mp hrun) (hk ⟨v⟩)

end AccessCache.Memory
