import AccessCache.Proofs.Disk.Tables

/-!
# Keys of databases

Keys tell texts apart as far as digests do, and whatever the texts are, a store takes every key
that is built of them: those that are looked up or scanned for, and those that the databases hold
after any edits (`keys_unambiguous`).
-/

namespace AccessCache.Disk

open Database Key

theorem Database.Stored.storable {κ ν : Type} [Content κ] [Content ν]
    {place : Record κ ν → Bytes} {db : Database} (h : Stored place db)
    (hplace : ∀ r, Storable (place r)) {b bs : Bytes} (hb : db[b]? = some bs) : Storable b := by
  obtain ⟨r, rfl, _⟩ := h b bs hb
  exact hplace r

/-- In a good state all databases are keyed by parts and pairs of parts. -/
theorem storable_of_good {s : State} (h : Good s) {r : Relation} {e : String × Part State Database}
    (he : e ∈ databases r) {b bs : Bytes} (hb : (e.2.get s)[b]? = some bs) : Storable b := by
  cases r with
  | credential =>
    rcases List.mem_cons.mp he with rfl | he
    · exact h.credentials.keys.storable (fun r => storable_part r.key.secret) hb
    · obtain rfl := List.mem_singleton.mp he
      exact h.credentials.devices.storable (fun r => storable_pair r.key.text r.value.secret) hb
  | deviceGroup =>
    obtain rfl := List.mem_singleton.mp he
    exact h.deviceGroups.storable (fun r => storable_part r.key.text) hb
  | profileGroup =>
    obtain rfl := List.mem_singleton.mp he
    exact h.profileGroups.storable (fun r => storable_part r.key.text) hb
  | groupOrg =>
    obtain rfl := List.mem_singleton.mp he
    exact h.groupOrgs.storable (fun r => storable_part r.key.text) hb
  | role =>
    rcases List.mem_cons.mp he with rfl | he
    · exact h.roles.assignments.storable (fun r => storable_pair r.key.group.text _) hb
    · obtain rfl := List.mem_singleton.mp he
      exact h.roles.memberships.storable (fun r => storable_pair r.key.text r.value.text) hb

/-- Parts are shared by equal texts and by digested ones with one digest, pairs by equal parts, and
the beginning of a pair by its first part; and stores take all of them. -/
theorem keys_unambiguous :
    (∀ a b, part a = part b ↔
        a = b ∨ Digested a ∧ Digested b ∧ Sha256.digest (utf8 a) = Sha256.digest (utf8 b)) ∧
      (∀ a b c d, pair a b = pair c d ↔ part a = part c ∧ part b = part d) ∧
      (∀ x a b, pairStart x <+: pair a b ↔ part x = part a) ∧
      (∀ a, 1 ≤ (part a).length ∧ (part a).length ≤ 200) ∧
      (∀ a b, Storable (part a) ∧ Storable (pairStart a) ∧ Storable (pair a b)) ∧
      ∀ (capacity : Option Nat) (es : List Edit) (r : Relation), ∀ e ∈ databases r, ∀ b bs,
        (e.2.get ((caches capacity).after es empty))[b]? = some bs → Storable b := by
  refine ⟨fun a b => ?_, fun a b c d => pair_eq_pair_iff, fun x a b => pairStart_isPrefix_iff,
    fun a => ⟨length_part_pos a, length_part_le a⟩, fun a b => ?_, ?_⟩
  · rw [part_eq_part_iff, not_inline_iff, not_inline_iff]
  · exact ⟨storable_part a, storable_pairStart a, storable_pair a b⟩
  · intro capacity es r e he b bs hb
    have hgood : Good ((caches capacity).after es empty) :=
      (regular capacity).after_good good_empty es
    exact storable_of_good hgood he hb

/-- The link of the empty text stands under a digest, which the store takes. -/
theorem keys_unambiguous_emptyText :
    let s := (caches none).after [.save (.deviceGroup ⟨""⟩ ⟨"group"⟩)] empty
    s.deviceGroups.table.links[part ""]? =
        some (Record.encode (⟨⟨""⟩, ⟨"group"⟩⟩ : Record DeviceId GroupId)) ∧
      Storable (part "") := by
  intro s
  have hsaved : ∀ (d : DeviceId) (g : GroupId),
      ((caches none).after [.save (.deviceGroup d g)] empty).deviceGroups.table.links =
        (∅ : Database).insert (part d.text) (Record.encode ⟨d, g⟩) := fun _ _ => rfl
  have hlink : s.deviceGroups.table.links[part ""]? =
      some (Record.encode (⟨⟨""⟩, ⟨"group"⟩⟩ : Record DeviceId GroupId)) := by
    rw [hsaved, Std.ExtTreeMap.getElem?_insert_self]
  have hdatabase : ("links", deviceLinksPart) ∈ databases .deviceGroup := List.mem_singleton.mpr rfl
  exact ⟨hlink, keys_unambiguous.2.2.2.2.2 none [.save (.deviceGroup ⟨""⟩ ⟨"group"⟩)] .deviceGroup
    ("links", deviceLinksPart) hdatabase (part "") _ hlink⟩

end AccessCache.Disk
