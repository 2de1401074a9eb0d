import AccessCache.Proofs.Disk.Tables

/-!
# Databases in lockstep

The two databases of a cache hold the same pairs after any edits, whatever digests coincide and
whichever edits fail for want of room. So the records of a device are exactly the keys that are
found with it, and go with it (`devices_mirror_keys`), and the groups of a member are exactly those
in which a role is found (`memberships_mirror_assignments`).
-/

namespace AccessCache.Disk

open Database

/-! ## Keys and devices -/

namespace Credentials

variable {t : Credentials}

/-- What stands in the one database stands turned round in the other. -/
theorem Lockstep.keys_entry (h : t.Lockstep) {b bs : Bytes} (hb : t.keys[b]? = some bs) :
    ∃ (k : CredentialKey) (d : DeviceId), b = Key.part k.secret ∧
      bs = Record.encode (⟨k, d⟩ : Record CredentialKey DeviceId) ∧
      t.devices[Key.pair d.text k.secret]? =
        some (Record.encode (⟨d, k⟩ : Record DeviceId CredentialKey)) := by
  obtain ⟨⟨k, d⟩, rfl, rfl⟩ := h.keys b bs hb
  exact ⟨k, d, rfl, rfl, (h.turned k d).mp hb⟩

theorem Lockstep.devices_entry (h : t.Lockstep) {b bs : Bytes} (hb : t.devices[b]? = some bs) :
    ∃ (k : CredentialKey) (d : DeviceId), b = Key.pair d.text k.secret ∧
      bs = Record.encode (⟨d, k⟩ : Record DeviceId CredentialKey) ∧
      t.keys[Key.part k.secret]? =
        some (Record.encode (⟨k, d⟩ : Record CredentialKey DeviceId)) := by
  obtain ⟨⟨d, k⟩, rfl, rfl⟩ := h.devices b bs hb
  exact ⟨k, d, rfl, rfl, (h.turned k d).mpr hb⟩

theorem Lockstep.size_devices (h : t.Lockstep) : t.devices.size = t.keys.size := by
  obtain ⟨rs, hnd, hmem, hsize⟩ := h.keys.exists_records
  obtain ⟨rs', hnd', hmem', hsize'⟩ := h.devices.exists_records
  let turn (r : Record CredentialKey DeviceId) : Record DeviceId CredentialKey := ⟨r.value, r.key⟩
  have hturn : (rs.map turn).Nodup := by
    refine List.pairwise_map.mpr (hnd.imp fun {r r'} hne heq => hne ?_)
    cases r
    cases r'
    cases heq
    rfl
  have hperm : rs'.Perm (rs.map turn) := by
    rw [List.perm_ext_iff_of_nodup hnd' hturn]
    rintro ⟨d, k⟩
    rw [hmem', ← h.turned, ← hmem, List.mem_map]
    constructor
    · exact fun hr => ⟨⟨k, d⟩, hr, rfl⟩
    · rintro ⟨⟨k', d'⟩, hr, heq⟩
      cases heq
      exact hr
  rw [hsize, hsize', hperm.length_eq, List.length_map]

end Credentials

/-- Removing a device succeeds; the keys that were found with it are found no more, and the answers
for all others stay. -/
theorem resolve_remove (capacity : Option Nat) {s : State} (hs : Good s) (d : DeviceId) :
    let c := (caches capacity).credentials
    ((c.remove d).act s).value = .ok () ∧
      ∀ k, (((c.resolve k).act s).value = .ok d →
          ((c.resolve k).act ((c.remove d).act s).state).value =
            .error (.notFound .credential CredentialKey.placeholder)) ∧
        (((c.resolve k).act s).value ≠ .ok d →
          ((c.resolve k).act ((c.remove d).act s).state).value = ((c.resolve k).act s).value) := by
  intro c
  have hvalue : ((c.remove d).act s).value = .ok () := by
    obtain ⟨n, t', hremove, _⟩ := hs.credentials.remove d
    exact Counted.change_value ⟨n, t', hremove⟩
  refine ⟨hvalue, fun k => ?_⟩
  rcases (regular capacity).edit hs (.remove (.credentials d)) with
    ⟨_, hs', heffect, _⟩ | ⟨⟨err, hfail⟩, _⟩
  · have hbefore : ((c.resolve k).act s).value = _ :=
      (regular capacity).lookup_value hs (.credential k)
    have hafter : ((c.resolve k).act ((c.remove d).act s).state).value = _ :=
      (regular capacity).lookup_value hs' (.credential k)
    -- a removal by value has no target, so nothing is lost to another's place
    have hfacts := (heffect (.credential k)).resolve_right fun ⟨_, _, htarget, _⟩ => nomatch htarget
    rw [hbefore, hafter, hfacts, Edit.on_remove_credentials_eq]
    constructor
    · intro hd
      rw [if_pos (Query.reply_eq_ok_iff.mp hd)]
      rfl
    · intro hne
      rw [if_neg fun hd => hne (Query.reply_eq_ok_iff.mpr hd)]
  · cases hvalue.symm.trans hfail

/-- After any edits the keys and the devices hold the same records, those of the one turned round
in the other; and removing a device takes away the keys that were found with it, and no others. -/
theorem devices_mirror_keys (capacity : Option Nat) (es : List Edit) :
    let c := (caches capacity).credentials
    let s := (caches capacity).after es empty
    let t := s.credentials.table
    (∀ b bs, t.keys[b]? = some bs → ∃ (k : CredentialKey) (d : DeviceId), b = Key.part k.secret ∧
        bs = Record.encode (⟨k, d⟩ : Record CredentialKey DeviceId) ∧
        t.devices[Key.pair d.text k.secret]? =
          some (Record.encode (⟨d, k⟩ : Record DeviceId CredentialKey))) ∧
      (∀ b bs, t.devices[b]? = some bs → ∃ (k : CredentialKey) (d : DeviceId),
        b = Key.pair d.text k.secret ∧
        bs = Record.encode (⟨d, k⟩ : Record DeviceId CredentialKey) ∧
        t.keys[Key.part k.secret]? =
          some (Record.encode (⟨k, d⟩ : Record CredentialKey DeviceId))) ∧
      t.devices.size = t.keys.size ∧
      ∀ d, ((c.remove d).act s).value = .ok () ∧
        ∀ k, (((c.resolve k).act s).value = .ok d →
            ((c.resolve k).act ((c.remove d).act s).state).value =
              .error (.notFound .credential CredentialKey.placeholder)) ∧
          (((c.resolve k).act s).value ≠ .ok d →
            ((c.resolve k).act ((c.remove d).act s).state).value =
              ((c.resolve k).act s).value) := by
  intro c s t
  have hgood : Good s := (regular capacity).after_good good_empty es
  have hlock : t.Lockstep := hgood.credentials
  exact ⟨fun b bs hb => hlock.keys_entry hb, fun b bs hb => hlock.devices_entry hb,
    hlock.size_devices, fun d => resolve_remove capacity hgood d⟩

/-! ## Assignments and memberships -/

/-- After any edits a pair is assigned a role exactly where it is a membership, and the databases
hold nothing else; and the groups of a member are those in which a role is found. -/
theorem memberships_mirror_assignments (capacity : Option Nat) (es : List Edit) :
    let c := (caches capacity).roles
    let s := (caches capacity).after es empty
    let t := s.roles.table
    (∀ k : RoleKey, (∃ role : Role, t.assignments[k.byGroup]? =
          some (Record.encode (⟨k, role⟩ : Record RoleKey Role))) ↔
        t.memberships[k.byMember]? =
          some (Record.encode (⟨k.member, k.group⟩ : Record MemberId GroupId))) ∧
      (∀ b bs, t.assignments[b]? = some bs → ∃ (k : RoleKey) (role : Role), b = k.byGroup ∧
        bs = Record.encode (⟨k, role⟩ : Record RoleKey Role)) ∧
      (∀ b bs, t.memberships[b]? = some bs → ∃ k : RoleKey, b = k.byMember ∧
        bs = Record.encode (⟨k.member, k.group⟩ : Record MemberId GroupId)) ∧
      ∀ m, ∃ gs, ((c.membershipsOf m).act s).value = .ok gs ∧
        ∀ g, g ∈ gs ↔ ∃ role, ((c.resolve ⟨g, m⟩).act s).value = .ok role := by
  intro c s t
  have hgood : Good s := (regular capacity).after_good good_empty es
  have hlock : t.Lockstep := hgood.roles
  refine ⟨hlock.paired, fun b bs hb => ?_, fun b bs hb => ?_, fun m => ?_⟩
  · obtain ⟨⟨k, role⟩, rfl, rfl⟩ := hlock.assignments b bs hb
    exact ⟨k, role, rfl, rfl⟩
  · obtain ⟨⟨m, g⟩, rfl, rfl⟩ := hlock.memberships b bs hb
    exact ⟨⟨g, m⟩, rfl, rfl⟩
  · obtain ⟨gs, hgs, _, hmem⟩ := (regular capacity).memberships hgood m
    refine ⟨gs, hgs, fun g => ?_⟩
    have hvalue : ((c.resolve ⟨g, m⟩).act s).value = _ :=
      (regular capacity).lookup_value hgood (.role ⟨g, m⟩)
    rw [hmem, Option.isSome_iff_exists, hvalue]
    constructor
    · rintro ⟨v, hv⟩
      exact ⟨⟨v⟩, Query.reply_eq_ok_iff.mpr hv⟩
    · rintro ⟨role, hrole⟩
      exact ⟨role.text, Query.reply_eq_ok_iff.mp hrole⟩

end AccessCache.Disk
