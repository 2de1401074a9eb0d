import AccessCache.Proofs.Retentive

/-!
# Unreadable records

Databases may hold any bytes. A lookup reads one slot and fails exactly if the bytes there are no
record; a membership query reads every entry that begins as those of the member do; saves and
removals of credentials read what they are about to take away, and no other edit reads anything
(`fails_iff_unreadable`). An operation reads before it writes, so one that fails has changed
nothing.
-/

namespace AccessCache

/-! ## Slots -/

namespace Query

/-- What a record holds whole beside the value. -/
def Key : Query → Type
  | .credential _ => CredentialKey
  | .deviceGroup _ => DeviceId
  | .profileGroup _ => ProfileId
  | .groupOrg _ => GroupId
  | .role _ => RoleKey

def key : (q : Query) → q.Key
  | .credential k => k
  | .deviceGroup d => d
  | .profileGroup p => p
  | .groupOrg g => g
  | .role k => k

instance : (q : Query) → Disk.Content q.Key
  | .credential _ => inferInstanceAs (Disk.Content CredentialKey)
  | .deviceGroup _ => inferInstanceAs (Disk.Content DeviceId)
  | .profileGroup _ => inferInstanceAs (Disk.Content ProfileId)
  | .groupOrg _ => inferInstanceAs (Disk.Content GroupId)
  | .role _ => inferInstanceAs (Disk.Content RoleKey)

/-- What the slot of a query is read as. -/
abbrev Record (q : Query) : Type := Disk.Record q.Key (Id q.noun)

end Query

namespace Disk

open Database

/-- The bytes in the slot of a query, if there are any. -/
def slot? (s : State) : Query → Option Bytes
  | .credential k => s.credentials.table.keys[Key.part k.secret]?
  | .deviceGroup d => s.deviceGroups.table.links[Key.part d.text]?
  | .profileGroup p => s.profileGroups.table.links[Key.part p.text]?
  | .groupOrg g => s.groupOrgs.table.links[Key.part g.text]?
  | .role k => s.roles.table.assignments[k.byGroup]?

/-- Bytes that are no record of this kind. -/
def Unreadable (κ ν : Type) [Content κ] [Content ν] (bs : Bytes) : Prop :=
  ∃ e, (Record.decode bs : Except StoreError (Record κ ν)) = .error e

/-- Some entry whose key begins like this is no record. -/
def UnreadableFrom (κ ν : Type) [Content κ] [Content ν] (db : Database) (start : Bytes) : Prop :=
  ∃ b bs, db[b]? = some bs ∧ start <+: b ∧ Unreadable κ ν bs

/-! ## Failing steps -/

section Steps

variable {ε α β : Type}

theorem error_bind_iff {x : Except ε α} {f : α → Except ε β} :
    (∃ e, x >>= f = .error e) ↔
      (∃ e, x = .error e) ∨ ∃ a, x = .ok a ∧ ∃ e, f a = .error e := by
  simp only [Steps.bind_eq_error_iff, exists_or, ← exists_and_left]
  rw [exists_comm]

/-- Going through a list fails exactly if one of its elements fails. -/
theorem mapM_error_iff {f : α → Except ε β} {l : List α} :
    (∃ e, l.mapM f = .error e) ↔ ∃ a ∈ l, ∃ e, f a = .error e := by
  induction l with
  | nil =>
    refine iff_of_false ?_ ?_
    · rintro ⟨_, ⟨⟩⟩
    · rintro ⟨_, ⟨⟩, _⟩
  | cons a l ih =>
    simp only [List.mapM_cons, error_bind_iff, List.mem_cons, exists_eq_or_imp]
    refine or_congr_right' fun hok => ?_
    obtain ⟨b, hb⟩ : ∃ b, f a = .ok b := by
      cases hf : f a with
      | ok b => exact ⟨b, rfl⟩
      | error e => exact absurd ⟨e, hf⟩ hok
    simp only [hb, Except.ok.injEq, exists_eq_left', ih]
    constructor
    · rintro (h | ⟨_, _, _, ⟨⟩⟩)
      exact h
    · exact .inl

end Steps

/-! ## Reading databases -/

namespace Database

theorem mem_scan_iff {db : Database} {start b bs : Bytes} :
    (b, bs) ∈ db.scan start ↔ db[b]? = some bs ∧ start <+: b := by
  rw [scan, List.mem_filter, Std.ExtTreeMap.mem_toList_iff_getElem?_eq_some,
    List.isPrefixOf_iff_prefix]

variable {κ ν : Type} [Content κ] [Content ν] {db : Database} {place : Bytes}

theorem record?_error_iff :
    (∃ e, (db.record? place : Except StoreError (Option (Record κ ν))) = .error e) ↔
      ∃ bs, db[place]? = some bs ∧ Unreadable κ ν bs := by
  unfold record? Unreadable
  cases db[place]? with
  | none => simp
  | some bs =>
    simp only [Option.some.injEq, exists_eq_left']
    cases (Record.decode bs : Except StoreError (Record κ ν)) with
    | error e => exact iff_of_true ⟨e, rfl⟩ ⟨e, rfl⟩
    | ok r => exact iff_of_false nofun nofun

theorem records_error_iff {start : Bytes} :
    (∃ e, (db.records start : Except StoreError (List (Bytes × Record κ ν))) = .error e) ↔
      UnreadableFrom κ ν db start := by
  have hentry : ∀ e : Bytes × Bytes,
      (∃ err, (do pure (e.1, ← Record.decode e.2) : Except StoreError (Bytes × Record κ ν)) =
        .error err) ↔ Unreadable κ ν e.2 := by
    intro e
    unfold Unreadable
    cases (Record.decode e.2 : Except StoreError (Record κ ν)) with
    | error err => exact iff_of_true ⟨err, rfl⟩ ⟨err, rfl⟩
    | ok r => exact iff_of_false nofun nofun
  unfold records UnreadableFrom
  rw [mapM_error_iff]
  constructor
  · rintro ⟨⟨b, bs⟩, hmem, herr⟩
    rw [mem_scan_iff] at hmem
    exact ⟨b, bs, hmem.1, hmem.2, (hentry (b, bs)).mp herr⟩
  · rintro ⟨b, bs, hb, hstart, hbs⟩
    exact ⟨(b, bs), mem_scan_iff.mpr ⟨hb, hstart⟩, (hentry (b, bs)).mpr hbs⟩

theorem put_error_iff {capacity : Option Nat} {bs : Bytes} :
    (∃ e, db.put capacity place bs = .error e) ↔ ¬ Fits capacity place bs := by
  unfold put
  split_ifs with h <;> simp [h]

variable [DecidableEq κ] {k : κ}

/-- A slot that holds nothing is a miss. -/
theorem value?_of_none (h : db[place]? = none) :
    (db.value? place k : Except StoreError (Option ν)) = .ok none := by
  rw [value?, record?, h]
  rfl

/-- A slot that holds bytes is read, and counts for the key that the record holds. -/
theorem value?_of_some {bs : Bytes} (h : db[place]? = some bs) :
    (db.value? place k : Except StoreError (Option ν)) =
      match (Record.decode bs : Except StoreError (Record κ ν)) with
      | .ok r => .ok (if r.key = k then some r.value else none)
      | .error e => .error e := by
  rw [value?, record?, h]
  simp only
  cases (Record.decode bs : Except StoreError (Record κ ν)) with
  | error e => rfl
  | ok r =>
    show Except.ok (((some r).filter (·.key = k)).map (·.value)) = _
    by_cases hk : r.key = k <;> simp [Option.filter, hk]

theorem value?_eq_some_iff {v : ν} :
    db.value? place k = .ok (some v) ↔
      ∃ bs, db[place]? = some bs ∧ Record.decode bs = .ok (⟨k, v⟩ : Record κ ν) := by
  cases hslot : db[place]? with
  | none =>
    rw [value?_of_none hslot]
    simp
  | some bs =>
    rw [value?_of_some hslot]
    simp only [Option.some.injEq, exists_eq_left']
    cases (Record.decode bs : Except StoreError (Record κ ν)) with
    | error e => exact iff_of_false nofun nofun
    | ok r =>
      obtain ⟨k', v'⟩ := r
      by_cases hk : k' = k <;> simp [hk]

theorem value?_eq_none_iff :
    (db.value? place k : Except StoreError (Option ν)) = .ok none ↔ db[place]? = none ∨
      ∃ (bs : Bytes) (r : Record κ ν), db[place]? = some bs ∧ Record.decode bs = .ok r ∧
        r.key ≠ k := by
  cases hslot : db[place]? with
  | none => exact iff_of_true (value?_of_none hslot) (.inl rfl)
  | some bs =>
    rw [value?_of_some hslot]
    simp only [Option.some.injEq, reduceCtorEq, false_or]
    cases hr : (Record.decode bs : Except StoreError (Record κ ν)) with
    | error e => simp [hr]
    | ok r => by_cases hk : r.key = k <;> simp [hr, hk]

theorem value?_eq_error_iff {e : StoreError} :
    (db.value? place k : Except StoreError (Option ν)) = .error e ↔
      ∃ bs, db[place]? = some bs ∧
        (Record.decode bs : Except StoreError (Record κ ν)) = .error e := by
  cases hslot : db[place]? with
  | none =>
    rw [value?_of_none hslot]
    simp
  | some bs =>
    rw [value?_of_some hslot]
    simp only [Option.some.injEq, exists_eq_left']
    cases (Record.decode bs : Except StoreError (Record κ ν)) <;> simp

end Database

/-! ## Writing databases -/

section Writes

variable {capacity : Option Nat}

theorem put_of_fits {db : Database} {b bs : Bytes} (h : Fits capacity b bs) :
    db.put capacity b bs = .ok (db.insert b bs) := if_pos h

theorem one_put_error_iff {γ : Type} {db : Database} {b bs : Bytes} {f : Database → γ} :
    (∃ e, (do pure (f (← db.put capacity b bs)) : Except StoreError γ) = .error e) ↔
      ¬ Fits capacity b bs := by
  rw [error_bind_iff, put_error_iff]
  refine or_iff_left ?_
  rintro ⟨_, _, _, ⟨⟩⟩

/-- Two records are written where both of them fit. -/
theorem two_puts_error_iff {γ : Type} {db db' : Database} {b bs b' bs' : Bytes}
    {f : Database → Database → γ} :
    (∃ e, (do
        let x ← db.put capacity b bs
        let y ← db'.put capacity b' bs'
        pure (f x y) : Except StoreError γ) = .error e) ↔
      ¬ (Fits capacity b bs ∧ Fits capacity b' bs') := by
  rw [error_bind_iff, put_error_iff]
  by_cases hfits : Fits capacity b bs
  · simp only [put_of_fits hfits, Except.ok.injEq, exists_eq_left', one_put_error_iff, hfits,
      not_true, false_or, true_and]
  · exact iff_of_true (.inl hfits) fun h => hfits h.1

/-- A save reads the record that it is about to overwrite. -/
theorem Credentials.save_error_iff {t : Credentials} {k : CredentialKey} {d : DeviceId} :
    (∃ e, t.save capacity k d = .error e) ↔
      (∃ bs, t.keys[Key.part k.secret]? = some bs ∧ Unreadable CredentialKey DeviceId bs) ∨
        ¬ (Fits capacity (Key.part k.secret) (Record.encode ⟨k, d⟩) ∧
          Fits capacity (Key.pair d.text k.secret)
            (Record.encode (⟨d, k⟩ : Record DeviceId CredentialKey))) := by
  unfold save
  rw [error_bind_iff, record?_error_iff]
  refine or_congr_right' fun hread => ?_
  have hold : ∃ old : Option (Record CredentialKey DeviceId),
      t.keys.record? (Key.part k.secret) = .ok old := by
    cases hr : (t.keys.record? (Key.part k.secret) :
      Except StoreError (Option (Record CredentialKey DeviceId))) with
    | ok old => exact ⟨old, rfl⟩
    | error e => exact absurd (record?_error_iff.mp ⟨e, hr⟩) hread
  obtain ⟨old, hold⟩ := hold
  simp only [hold, Except.ok.injEq, exists_eq_left', two_puts_error_iff]

/-- A removal reads all records that it may have to remove. -/
theorem Credentials.remove_error_iff {t : Credentials} {d : DeviceId} :
    (∃ e, t.remove d = .error e) ↔
      UnreadableFrom DeviceId CredentialKey t.devices (Key.pairStart d.text) := by
  unfold remove
  rw [error_bind_iff, records_error_iff]
  refine or_iff_left ?_
  rintro ⟨_, _, _, ⟨⟩⟩

theorem Roles.groupsOf_error_iff {t : Roles} {m : MemberId} :
    (∃ e, t.groupsOf m = .error e) ↔
      UnreadableFrom MemberId GroupId t.memberships (RoleKey.memberStart m) := by
  unfold groupsOf
  rw [error_bind_iff, records_error_iff]
  refine or_iff_left ?_
  rintro ⟨_, _, _, ⟨⟩⟩

end Writes

/-! ## Operations -/

/-- A record is in the way that the edit has to read, and cannot. -/
def Blocked (s : State) : Edit → Prop
  | .save (.credential k _) =>
    ∃ bs, slot? s (.credential k) = some bs ∧ Unreadable CredentialKey DeviceId bs
  | .remove (.credentials d) =>
    UnreadableFrom DeviceId CredentialKey s.credentials.table.devices (Key.pairStart d.text)
  | _ => False

/-- The store has room for all records that the edit writes. -/
def Room (capacity : Option Nat) : Edit → Prop
  | .save (.credential k d) =>
    Fits capacity (Key.part k.secret) (Record.encode ⟨k, d⟩) ∧
      Fits capacity (Key.pair d.text k.secret)
        (Record.encode (⟨d, k⟩ : Record DeviceId CredentialKey))
  | .save (.deviceGroup d g) => Fits capacity (Key.part d.text) (Record.encode ⟨d, g⟩)
  | .save (.profileGroup p g) => Fits capacity (Key.part p.text) (Record.encode ⟨p, g⟩)
  | .save (.groupOrg g o) => Fits capacity (Key.part g.text) (Record.encode ⟨g, o⟩)
  | .save (.role k r) =>
    Fits capacity k.byGroup (Record.encode ⟨k, r⟩) ∧
      Fits capacity k.byMember (Record.encode (⟨k.member, k.group⟩ : Record MemberId GroupId))
  | .remove _ => True

section Operations

variable (capacity : Option Nat) (s : State)

/-- The tables find what the slot holds. -/
theorem find_iff (q : Query) :
    let found :=
      Tables.find (credentialTable capacity) (linkTable capacity) (roleTable capacity) s q
    (∀ v, found = .ok (some v) ↔
        ∃ bs, slot? s q = some bs ∧ Record.decode bs = .ok (⟨q.key, v⟩ : q.Record)) ∧
      (found = .ok none ↔ slot? s q = none ∨
        ∃ (bs : Bytes) (r : q.Record), slot? s q = some bs ∧ Record.decode bs = .ok r ∧
          r.key ≠ q.key) ∧
      ∀ e, found = .error e ↔ ∃ bs, slot? s q = some bs ∧
        (Record.decode bs : Except StoreError q.Record) = .error e := by
  cases q <;>
    exact ⟨fun _ => value?_eq_some_iff, value?_eq_none_iff, fun _ => value?_eq_error_iff⟩

theorem edit_fails_iff (e : Edit) :
    (∃ err, (((caches capacity).edit e).act s).value = .error err) ↔
      Blocked s e ∨ ¬ Room capacity e := by
  cases e with
  | save f =>
    cases f with
    | credential k d => exact Counted.save_on_fails_iff.trans Credentials.save_error_iff
    | role k r =>
      show _ ↔ False ∨ ¬ Room capacity _
      rw [false_or]
      exact Counted.save_on_fails_iff.trans two_puts_error_iff
    | _ =>
      show _ ↔ False ∨ ¬ Room capacity _
      rw [false_or]
      exact Counted.save_on_fails_iff.trans one_put_error_iff
  | remove x =>
    rw [Room, not_true, or_false]
    cases x with
    | credentials d => exact Counted.change_on_fails_iff.trans Credentials.remove_error_iff
    | _ => exact Counted.change_on_fails_iff.trans (iff_of_false nofun id)

theorem memberships_error_iff (m : MemberId) (err : CacheError) :
    (((caches capacity).roles.membershipsOf m).act s).value = .error err ↔
      ∃ e, err = .unavailable .role (.store e) ∧ s.roles.table.groupsOf m = .error e := by
  have hvalue : (((caches capacity).roles.membershipsOf m).act s).value =
      (s.roles.table.groupsOf m).mapError fun e => .unavailable .role (.store e) :=
    Counted.query_value .role (Roles.groupsOf m) s.roles
  rw [hvalue]
  cases s.roles.table.groupsOf m with
  | ok gs => simp [Except.mapError]
  | error e => simp [Except.mapError, eq_comm]

/-- A lookup answers what its slot holds, and changes nothing if that is no record. -/
theorem lookup_iff (q : Query) :
    let o := ((caches capacity).lookup q).act s
    (∀ v, o.value = .ok v ↔
        ∃ bs, slot? s q = some bs ∧ Record.decode bs = .ok (⟨q.key, v⟩ : q.Record)) ∧
      (o.value = .error (.notFound q.relation q.label) ↔ slot? s q = none ∨
        ∃ (bs : Bytes) (r : q.Record), slot? s q = some bs ∧ Record.decode bs = .ok r ∧
          r.key ≠ q.key) ∧
      ((∃ out, o.value = .error (.unavailable q.relation out)) ↔
        ∃ bs, slot? s q = some bs ∧ Unreadable q.Key (Id q.noun) bs) ∧
      ∀ r out, o.value = .error (.unavailable r out) → r = q.relation ∧ o.state = s := by
  obtain ⟨hvalue, hstate⟩ := lookup_eq_found capacity s q
  obtain ⟨hsome, hnone, herror⟩ := find_iff capacity s q
  intro o
  rw [show o.value = _ from hvalue, show o.state = _ from hstate]
  refine ⟨fun v => ?_, ?_, ?_, fun r out hout => ?_⟩
  · rw [Counted.reply_eq_ok_iff, hsome]
  · rw [Counted.reply_eq_notFound_iff, hnone]
  · simp only [Counted.reply_eq_unavailable_iff, true_and]
    constructor
    · rintro ⟨_, e, _, hfind⟩
      obtain ⟨bs, hbs, hdecode⟩ := (herror e).mp hfind
      exact ⟨bs, hbs, e, hdecode⟩
    · rintro ⟨bs, hbs, e, hdecode⟩
      exact ⟨_, e, rfl, (herror e).mpr ⟨bs, hbs, hdecode⟩⟩
  · obtain ⟨hr, e, _, hfind⟩ := Counted.reply_eq_unavailable_iff.mp hout
    rw [hfind]
    exact ⟨hr, rfl⟩

/-- A membership query reads every entry that begins as those of the member do. -/
theorem memberships_fails_iff (m : MemberId) :
    (∃ err, (((caches capacity).roles.membershipsOf m).act s).value = .error err) ↔
      UnreadableFrom MemberId GroupId s.roles.table.memberships (RoleKey.memberStart m) := by
  simp only [memberships_error_iff]
  rw [← Roles.groupsOf_error_iff]
  constructor
  · rintro ⟨_, e, _, he⟩
    exact ⟨e, he⟩
  · rintro ⟨e, he⟩
    exact ⟨_, e, rfl, he⟩

/-- Whatever the databases hold, operations fail exactly where they meet bytes that they cannot
read, or where the store is full; those that fail leave databases and counters as they were. -/
theorem fails_iff_unreadable :
    (∀ q, let o := ((caches capacity).lookup q).act s
      (∀ v, o.value = .ok v ↔
          ∃ bs, slot? s q = some bs ∧ Record.decode bs = .ok (⟨q.key, v⟩ : q.Record)) ∧
        (o.value = .error (.notFound q.relation q.label) ↔ slot? s q = none ∨
          ∃ (bs : Bytes) (r : q.Record), slot? s q = some bs ∧ Record.decode bs = .ok r ∧
            r.key ≠ q.key) ∧
        ((∃ out, o.value = .error (.unavailable q.relation out)) ↔
          ∃ bs, slot? s q = some bs ∧ Unreadable q.Key (Id q.noun) bs) ∧
        ∀ r out, o.value = .error (.unavailable r out) → r = q.relation ∧ o.state = s) ∧
      (∀ m, let o := ((caches capacity).roles.membershipsOf m).act s
        ((∃ err, o.value = .error err) ↔
          UnreadableFrom MemberId GroupId s.roles.table.memberships (RoleKey.memberStart m)) ∧
        ∀ err, o.value = .error err → (∃ e, err = .unavailable .role (.store e)) ∧ o.state = s) ∧
      ∀ e, let o := ((caches capacity).edit e).act s
        ((∃ err, o.value = .error err) ↔ Blocked s e ∨ ¬ Room capacity e) ∧
        ∀ err, o.value = .error err →
          (∃ e', err = .unavailable e.relation (.store e')) ∧ o.state = s := by
  refine ⟨lookup_iff capacity s, fun m => ?_, fun e => ?_⟩
  · refine ⟨memberships_fails_iff capacity s m, fun err herr => ?_⟩
    obtain ⟨e, he, _⟩ := (memberships_error_iff capacity s m err).mp herr
    exact ⟨⟨e, he⟩, (steady capacity).memberships m s⟩
  · refine ⟨edit_fails_iff capacity s e, fun err herr => ?_⟩
    exact ⟨(retentive capacity).unavailable herr, (steady capacity).failed herr⟩

end Operations

/-- A byte that no text contains fails the save of the key in whose slot it stands. Inside a member
that nobody reads it does no harm. -/
theorem fails_iff_unreadable_save :
    let k : CredentialKey := ⟨"key"⟩
    let slot (bs : Bytes) : State :=
      { empty with credentials.table.keys := (∅ : Database).insert (Key.part k.secret) bs }
    let passedOver : Bytes := utf8 "\x7b\"key\":\"key\",\"value\":\"device\",\"more\":\"" ++
      [0xff] ++ utf8 "\"\x7d"
    let saved := ((caches none).edit (.save (.credential k ⟨"other"⟩))).act (slot [0xff])
    ((∃ e, saved.value = .error (.unavailable .credential (.store e))) ∧
      saved.state = slot [0xff]) ∧
      (((caches none).lookup (.credential k)).act (slot passedOver)).value = .ok ⟨"device"⟩ := by
  intro k slot passedOver saved
  have hslot (bs : Bytes) : (slot bs).credentials.table.keys[Key.part k.secret]? = some bs :=
    Std.ExtTreeMap.getElem?_insert_self
  constructor
  · obtain ⟨hfails, hkept⟩ :=
      (fails_iff_unreadable none (slot [0xff])).2.2 (.save (.credential k ⟨"other"⟩))
    have hblocked : Blocked (slot [0xff]) (.save (.credential k ⟨"other"⟩)) :=
      ⟨[0xff], hslot [0xff], .deserialization "expected value at line 1 column 1", rfl⟩
    obtain ⟨err, herr⟩ := hfails.mpr (.inl hblocked)
    obtain ⟨⟨e, rfl⟩, hstate⟩ := hkept err herr
    exact ⟨⟨e, herr⟩, hstate⟩
  · obtain ⟨hfound, -⟩ := (fails_iff_unreadable none (slot passedOver)).1 (.credential k)
    exact (hfound _).mpr ⟨passedOver, hslot passedOver, rfl⟩

end Disk

end AccessCache
