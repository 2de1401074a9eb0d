import AccessCache.Disk.Caches
import AccessCache.Proofs.Disk.Database
import AccessCache.Proofs.Key
import AccessCache.Proofs.Tables

/-!
# Tables on disk

The two databases of a table hold the same records, one of them turned round. So the tables are
lawful, whatever digests coincide: a write takes away what stood in its place from both databases
alike, and no record outlives its turned one.
-/

namespace AccessCache.Disk

open Database

/-- Two texts have the same bytes inside keys. -/
def Shared (s t : String) : Prop := Key.part s = Key.part t

/-! ## Links -/

namespace Links

variable {c p : Noun}

def slot (k : Id c) : Bytes := Key.part k.text

def Good (c p : Noun) (t : Links) : Prop :=
  Stored (byKey (Id p) (slot : Id c → Bytes)) t.links

def view (c p : Noun) (t : Links) : Id c → Option (Id p) := t.links.values (Id p) slot

end Links

theorem linkTable_lawful (capacity : Option Nat) (c p : Noun) :
    (linkTable capacity c p).Lawful (Links.Good c p) (Links.view c p) Shared where
  find h k := Stored.value? h k
  save {t t' k v} h hsave := by
    obtain ⟨links, hput, hpure⟩ := Steps.bind_eq_ok_iff.mp hsave
    cases hpure
    cases eq_insert_of_put hput
    exact ⟨h.insert ⟨k, v⟩, h.placed_insert k v⟩
  remove {t} h k := ⟨_, _, rfl, h.erase _, h.placed_erase k⟩
  size h := h.counts

/-! ## Credentials -/

namespace Credentials

def keySlot (k : CredentialKey) : Bytes := Key.part k.secret

/-- The place of a turned record. -/
def turnedPlace (r : Record DeviceId CredentialKey) : Bytes := Key.pair r.key.text r.value.secret

/-- Both databases hold the same pairs. -/
structure Lockstep (t : Credentials) : Prop where
  keys : Stored (byKey DeviceId keySlot) t.keys
  devices : Stored turnedPlace t.devices
  turned : ∀ k d, Has (byKey DeviceId keySlot) t.keys ⟨k, d⟩ ↔ Has turnedPlace t.devices ⟨d, k⟩

theorem lockstep_empty : Lockstep .empty where
  keys := stored_empty
  devices := stored_empty
  turned _ _ := iff_of_false not_has_empty not_has_empty

variable {t : Credentials} {k : CredentialKey} {d : DeviceId}

theorem turnedPlace_eq_iff {r r' : Record DeviceId CredentialKey} :
    turnedPlace r = turnedPlace r' ↔
      Key.part r.key.text = Key.part r'.key.text ∧ keySlot r.value = keySlot r'.value :=
  Key.pair_eq_pair_iff

/-- What stays turned round is what does not stand in the place of `k`. -/
theorem Lockstep.has_withoutStale (h : Lockstep t) {old : Option (Record CredentialKey DeviceId)}
    (hold : ∀ r, old = some r ↔ byKey DeviceId keySlot r = keySlot k ∧
      Has (byKey DeviceId keySlot) t.keys r) (k' : CredentialKey) (d' : DeviceId) :
    Has turnedPlace (withoutStale t.devices old) ⟨d', k'⟩ ↔
      keySlot k' ≠ keySlot k ∧ Has (byKey DeviceId keySlot) t.keys ⟨k', d'⟩ := by
  cases old with
  | none =>
    -- nothing stands in the place of `k`, so nothing is stale
    show Has turnedPlace t.devices ⟨d', k'⟩ ↔ _
    rw [← h.turned]
    refine ⟨fun hk' => ⟨fun hs => ?_, hk'⟩, And.right⟩
    cases (hold ⟨k', d'⟩).mpr ⟨hs, hk'⟩
  | some r =>
    obtain ⟨hs, hr⟩ := (hold r).mp rfl
    show Has turnedPlace (t.devices.erase (turnedPlace ⟨r.value, r.key⟩)) ⟨d', k'⟩ ↔ _
    rw [has_erase, ← h.turned]
    constructor
    · rintro ⟨hp, hk'⟩
      refine ⟨fun hs' => hp ?_, hk'⟩
      obtain rfl := Has.unique hk' hr (hs'.trans hs.symm)
      rfl
    · rintro ⟨hs', hk'⟩
      exact ⟨fun hp => hs' ((turnedPlace_eq_iff.mp hp).2.trans hs), hk'⟩

theorem Lockstep.save {t' : Credentials} {capacity : Option Nat} (h : Lockstep t)
    (hsave : t.save capacity k d = .ok t') :
    Lockstep t' ∧ t'.keys = t.keys.insert (keySlot k) (Record.encode ⟨k, d⟩) := by
  obtain ⟨old, hread, hold⟩ := h.keys.record? (keySlot k)
  obtain ⟨old', hread', hwrite⟩ := Steps.bind_eq_ok_iff.mp hsave
  cases hread.symm.trans hread'
  obtain ⟨keys, hkeys, hwrite⟩ := Steps.bind_eq_ok_iff.mp hwrite
  obtain ⟨devices, hdevices, hpure⟩ := Steps.bind_eq_ok_iff.mp hwrite
  cases hpure
  cases eq_insert_of_put hkeys
  cases eq_insert_of_put hdevices
  refine ⟨⟨h.keys.insert ⟨k, d⟩, ?_, fun k' d' => ?_⟩, rfl⟩
  · have hstale : Stored turnedPlace (withoutStale t.devices old) := by
      cases old with
      | none => exact h.devices
      | some r => exact h.devices.erase _
    exact hstale.insert ⟨d, k⟩
  · refine (has_insert ⟨k, d⟩ ⟨k', d'⟩).trans (Iff.trans ?_ (has_insert ⟨d, k⟩ ⟨d', k'⟩).symm)
    rw [h.has_withoutStale hold]
    refine or_congr ?_ ⟨fun hk' => ⟨fun hp => hk'.1 (turnedPlace_eq_iff.mp hp).2, hk'⟩, And.right⟩
    constructor <;> (rintro ⟨⟩; rfl)

/-- Without a bound on the store a save succeeds. -/
theorem Lockstep.exists_save (h : Lockstep t) (k : CredentialKey) (d : DeviceId) :
    ∃ t', t.save none k d = .ok t' := by
  obtain ⟨old, hread, _⟩ := h.keys.record? (Key.part k.secret)
  unfold Credentials.save
  rw [hread]
  exact ⟨_, rfl⟩

/-! ### Removing a device -/

variable {es : List (Bytes × Record DeviceId CredentialKey)}

/-- Dropping turned records, and what they turn, takes away what stands in their places. -/
theorem has_foldl_drop (es : List (Bytes × Record DeviceId CredentialKey)) (t : Credentials)
    (k' : CredentialKey) (d' : DeviceId) :
    (Has (byKey DeviceId keySlot) (es.foldl drop t).keys ⟨k', d'⟩ ↔
        (∀ e ∈ es, keySlot k' ≠ keySlot e.2.value) ∧
          Has (byKey DeviceId keySlot) t.keys ⟨k', d'⟩) ∧
      (Has turnedPlace (es.foldl drop t).devices ⟨d', k'⟩ ↔
        (∀ e ∈ es, turnedPlace ⟨d', k'⟩ ≠ e.1) ∧ Has turnedPlace t.devices ⟨d', k'⟩) := by
  induction es generalizing t with
  | nil => simp
  | cons e es ih =>
    obtain ⟨hkeys, hdevices⟩ := ih (drop t e)
    rw [List.foldl_cons, hkeys, hdevices, List.forall_mem_cons, List.forall_mem_cons]
    constructor
    · rw [show Has (byKey DeviceId keySlot) (drop t e).keys ⟨k', d'⟩ ↔ _ from has_erase]
      exact ⟨fun ⟨h, he, hk⟩ => ⟨⟨he, h⟩, hk⟩, fun ⟨⟨he, h⟩, hk⟩ => ⟨h, he, hk⟩⟩
    · rw [show Has turnedPlace (drop t e).devices ⟨d', k'⟩ ↔ _ from has_erase]
      exact ⟨fun ⟨h, he, hk⟩ => ⟨⟨he, h⟩, hk⟩, fun ⟨⟨he, h⟩, hk⟩ => ⟨h, he, hk⟩⟩

theorem stored_foldl_drop (hk : Stored (byKey DeviceId keySlot) t.keys)
    (hd : Stored turnedPlace t.devices) :
    Stored (byKey DeviceId keySlot) (es.foldl drop t).keys ∧
      Stored turnedPlace (es.foldl drop t).devices := by
  induction es generalizing t with
  | nil => exact ⟨hk, hd⟩
  | cons e es ih => exact ih (hk.erase _) (hd.erase _)

/-- The entries are the turned records of a device. -/
def Owned (t : Credentials) (d : DeviceId) (es : List (Bytes × Record DeviceId CredentialKey)) :
    Prop :=
  ∀ e, e ∈ es ↔ e.1 = turnedPlace e.2 ∧ e.2.key = d ∧ Has turnedPlace t.devices e.2

/-- Removing a device drops what it owns: the scan may find records of devices that share its part,
but these are left out. -/
theorem Lockstep.exists_owned (h : Lockstep t) (d : DeviceId) :
    ∃ es, t.remove d = .ok (es.length, es.foldl drop t) ∧ Owned t d es ∧
      (es.map Prod.fst).Nodup := by
  obtain ⟨found, hread, hfound⟩ := h.devices.records (Key.pairStart d.text)
  have hnodup : ((found.filter (·.2.key = d)).map Prod.fst).Nodup :=
    (nodup_of_records hread).sublist (List.filter_sublist.map _)
  refine ⟨found.filter (·.2.key = d), ?_, fun e => ?_, hnodup⟩
  · unfold Credentials.remove
    rw [hread]
    rfl
  · rw [List.mem_filter, hfound, decide_eq_true_iff]
    constructor
    · rintro ⟨⟨hp, _, hr⟩, hd⟩
      exact ⟨hp, hd, hr⟩
    · rintro ⟨hp, hd, hr⟩
      have hstart : Key.pairStart d.text <+: turnedPlace e.2 :=
        Key.pairStart_isPrefix_iff.mpr (by rw [hd])
      exact ⟨⟨hp, hstart, hr⟩, hd⟩

theorem Owned.mem (hes : Owned t d es) (hr : Has turnedPlace t.devices ⟨d, k⟩) :
    (turnedPlace ⟨d, k⟩, ⟨d, k⟩) ∈ es :=
  (hes _).mpr ⟨rfl, rfl, hr⟩

theorem Lockstep.keys_foldl_drop (h : Lockstep t) (hes : Owned t d es) (k' : CredentialKey)
    (d' : DeviceId) :
    Has (byKey DeviceId keySlot) (es.foldl drop t).keys ⟨k', d'⟩ ↔
      d' ≠ d ∧ Has (byKey DeviceId keySlot) t.keys ⟨k', d'⟩ := by
  rw [(has_foldl_drop es t k' d').1]
  constructor
  · rintro ⟨hall, hk⟩
    refine ⟨?_, hk⟩
    rintro rfl
    exact hall _ (hes.mem ((h.turned k' d').mp hk)) rfl
  · rintro ⟨hne, hk⟩
    -- what stands in the place of a dropped pair is that pair, and belongs to `d`
    refine ⟨fun e he hs => hne ?_, hk⟩
    obtain ⟨_, hd, hr⟩ := (hes e).mp he
    have heq := Has.unique hk ((h.turned e.2.value e.2.key).mpr hr) hs
    exact (congrArg Record.value heq).trans hd

theorem Owned.devices_foldl_drop (hes : Owned t d es) (k' : CredentialKey) (d' : DeviceId) :
    Has turnedPlace (es.foldl drop t).devices ⟨d', k'⟩ ↔
      d' ≠ d ∧ Has turnedPlace t.devices ⟨d', k'⟩ := by
  rw [(has_foldl_drop es t k' d').2]
  constructor
  · rintro ⟨hall, hr⟩
    refine ⟨?_, hr⟩
    rintro rfl
    exact hall _ (hes.mem hr) rfl
  · rintro ⟨hne, hr⟩
    refine ⟨fun e he hp => hne ?_, hr⟩
    obtain ⟨hpe, hd, hre⟩ := (hes e).mp he
    have heq := Has.unique hr hre (hp.trans hpe)
    exact (congrArg Record.key heq).trans hd

def view (t : Credentials) : CredentialKey → Option DeviceId := t.keys.values DeviceId keySlot

/-- A device owns as many turned records as there are keys with it. -/
theorem Lockstep.counts_owned (h : Lockstep t) (hes : Owned t d es)
    (hnodup : (es.map Prod.fst).Nodup) :
    Counts es.length fun k => (t.view k).filter (· = d) := by
  refine ⟨es.map (·.2.value), ?_, fun k => ?_, by simp⟩
  · refine List.pairwise_map.mpr ((List.pairwise_map.mp hnodup).imp_of_mem fun he he' hne hk => ?_)
    obtain ⟨hp, hd, _⟩ := (hes _).mp he
    obtain ⟨hp', hd', _⟩ := (hes _).mp he'
    refine hne ?_
    rw [hp, hp', turnedPlace, turnedPlace, hk, hd, hd']
  · rw [List.mem_map, Option.isSome_iff_exists]
    simp only [Option.filter_eq_some_iff, decide_eq_true_iff, view, h.keys.values_eq_some_iff,
      h.turned]
    constructor
    · rintro ⟨e, he, rfl⟩
      obtain ⟨_, hd, hr⟩ := (hes e).mp he
      exact ⟨e.2.key, hr, hd⟩
    · rintro ⟨_, hr, rfl⟩
      exact ⟨_, hes.mem hr, rfl⟩

/-- Removing a device takes away its pairs and no other, and counts them. -/
theorem Lockstep.remove (h : Lockstep t) (d : DeviceId) :
    ∃ n t', t.remove d = .ok (n, t') ∧ Lockstep t' ∧
      (∀ k' d', Has (byKey DeviceId keySlot) t'.keys ⟨k', d'⟩ ↔
        d' ≠ d ∧ Has (byKey DeviceId keySlot) t.keys ⟨k', d'⟩) ∧
      Counts n fun k => (t.view k).filter (· = d) := by
  obtain ⟨es, hremove, hes, hnodup⟩ := h.exists_owned d
  have hstored : Stored (byKey DeviceId keySlot) (es.foldl drop t).keys ∧
      Stored turnedPlace (es.foldl drop t).devices := stored_foldl_drop h.keys h.devices
  refine ⟨_, _, hremove, ⟨hstored.1, hstored.2, fun k' d' => ?_⟩, h.keys_foldl_drop hes,
    h.counts_owned hes hnodup⟩
  rw [h.keys_foldl_drop hes, hes.devices_foldl_drop, h.turned]

theorem Lockstep.view_remove {t' : Credentials} (h : Lockstep t) (h' : Lockstep t')
    (hhas : ∀ k' d', Has (byKey DeviceId keySlot) t'.keys ⟨k', d'⟩ ↔
      d' ≠ d ∧ Has (byKey DeviceId keySlot) t.keys ⟨k', d'⟩) (k : CredentialKey) :
    t'.view k = (t.view k).filter (· ≠ d) := by
  refine Option.ext fun d' => ?_
  rw [view, h'.keys.values_eq_some_iff, hhas, Option.filter_eq_some_iff, view,
    h.keys.values_eq_some_iff, decide_eq_true_iff, and_comm]

end Credentials

theorem credentialTable_lawful (capacity : Option Nat) :
    (credentialTable capacity).Lawful Credentials.Lockstep Credentials.view Shared where
  find h k := h.keys.value? k
  save {t t' k d} h hsave := by
    obtain ⟨h', hkeys⟩ := h.save hsave
    refine ⟨h', ?_⟩
    unfold Credentials.view
    rw [hkeys]
    exact h.keys.placed_insert k d
  remove h d := by
    obtain ⟨n, t', hremove, h', hhas, hcounts⟩ := h.remove d
    exact ⟨n, t', hremove, h', h.view_remove h' hhas, hcounts⟩
  size h := h.keys.counts

/-! ## Roles -/

namespace Roles

/-- The place of a membership. -/
def membershipPlace (r : Record MemberId GroupId) : Bytes := Key.pair r.key.text r.value.text

/-- Each pair has a role exactly where it is a membership. -/
structure Lockstep (t : Roles) : Prop where
  assignments : Stored (byKey Role RoleKey.byGroup) t.assignments
  memberships : Stored membershipPlace t.memberships
  paired : ∀ k, (∃ role, Has (byKey Role RoleKey.byGroup) t.assignments ⟨k, role⟩) ↔
    Has membershipPlace t.memberships ⟨k.member, k.group⟩

theorem lockstep_empty : Lockstep .empty where
  assignments := stored_empty
  memberships := stored_empty
  paired _ := iff_of_false (fun ⟨_, h⟩ => not_has_empty h) not_has_empty

variable {t : Roles} {k : RoleKey}

/-- Pairs clash in one order of their parts as in the other. -/
theorem byGroup_eq_iff {k k' : RoleKey} :
    k.byGroup = k'.byGroup ↔
      membershipPlace ⟨k.member, k.group⟩ = membershipPlace ⟨k'.member, k'.group⟩ := by
  refine Key.pair_eq_pair_iff.trans (Iff.trans ?_ Key.pair_eq_pair_iff.symm)
  exact and_comm

theorem Lockstep.save {t' : Roles} {capacity : Option Nat} {role : Role} (h : Lockstep t)
    (hsave : t.save capacity k role = .ok t') :
    Lockstep t' ∧ t'.assignments = t.assignments.insert k.byGroup (Record.encode ⟨k, role⟩) := by
  obtain ⟨assignments, hassign, hwrite⟩ := Steps.bind_eq_ok_iff.mp hsave
  obtain ⟨memberships, hmember, hpure⟩ := Steps.bind_eq_ok_iff.mp hwrite
  cases hpure
  cases eq_insert_of_put hassign
  cases eq_insert_of_put hmember
  refine ⟨⟨h.assignments.insert ⟨k, role⟩, h.memberships.insert ⟨k.member, k.group⟩, ?_⟩, rfl⟩
  intro k'
  constructor
  · rintro ⟨role', hr⟩
    refine (has_insert ⟨k.member, k.group⟩ ⟨k'.member, k'.group⟩).mpr ?_
    rcases (has_insert ⟨k, role⟩ ⟨k', role'⟩).mp hr with heq | ⟨hne, hr⟩
    · cases heq
      exact .inl rfl
    · exact .inr ⟨fun hp => hne (byGroup_eq_iff.mpr hp), (h.paired k').mp ⟨role', hr⟩⟩
  · intro hm
    rcases (has_insert ⟨k.member, k.group⟩ ⟨k'.member, k'.group⟩).mp hm with heq | ⟨hne, hm⟩
    · obtain rfl : k' = k := by
        cases k
        cases k'
        cases heq
        rfl
      exact ⟨role, (has_insert ⟨k', role⟩ ⟨k', role⟩).mpr (.inl rfl)⟩
    · obtain ⟨role', hr⟩ := (h.paired k').mpr hm
      refine ⟨role', (has_insert ⟨k, role⟩ ⟨k', role'⟩).mpr (.inr ⟨?_, hr⟩)⟩
      exact fun hp => hne (byGroup_eq_iff.mp hp)

theorem Lockstep.remove (h : Lockstep t) (k : RoleKey) : Lockstep (t.remove k).2 where
  assignments := h.assignments.erase _
  memberships := h.memberships.erase _
  paired k' := by
    have hm : Has membershipPlace (t.remove k).2.memberships ⟨k'.member, k'.group⟩ ↔
        membershipPlace ⟨k'.member, k'.group⟩ ≠ membershipPlace ⟨k.member, k.group⟩ ∧
          Has membershipPlace t.memberships ⟨k'.member, k'.group⟩ := has_erase
    have ha : ∀ role, Has (byKey Role RoleKey.byGroup) (t.remove k).2.assignments ⟨k', role⟩ ↔
        k'.byGroup ≠ k.byGroup ∧ Has (byKey Role RoleKey.byGroup) t.assignments ⟨k', role⟩ :=
      fun _ => has_erase
    rw [hm, ← h.paired, ne_eq, ← byGroup_eq_iff]
    simp only [ha, exists_and_left, ne_eq]

theorem Lockstep.groupsOf (h : Lockstep t) (m : MemberId) :
    ∃ gs, t.groupsOf m = .ok gs ∧
      ∀ g, g ∈ gs ↔ Has membershipPlace t.memberships ⟨m, g⟩ := by
  obtain ⟨found, hread, hfound⟩ := h.memberships.records (RoleKey.memberStart m)
  refine ⟨.ofList ((found.filter (·.2.key = m)).map (·.2.value)), ?_, fun g => ?_⟩
  · unfold Roles.groupsOf
    rw [hread]
    rfl
  · rw [Std.ExtTreeSet.mem_ofList, List.contains_iff_mem, List.mem_map]
    constructor
    · rintro ⟨e, he, rfl⟩
      rw [List.mem_filter, hfound, decide_eq_true_iff] at he
      obtain ⟨⟨_, _, hr⟩, rfl⟩ := he
      exact hr
    · intro hr
      refine ⟨(membershipPlace ⟨m, g⟩, ⟨m, g⟩), ?_, rfl⟩
      rw [List.mem_filter, hfound, decide_eq_true_iff]
      exact ⟨⟨rfl, Key.pairStart_isPrefix_iff.mpr rfl, hr⟩, rfl⟩

def view (t : Roles) : RoleKey → Option Role := t.assignments.values Role RoleKey.byGroup

theorem byGroup_clash (k k' : RoleKey) (h : k.byGroup = k'.byGroup) : k.Clash Shared k' :=
  Key.pair_eq_pair_iff.mp h

end Roles

theorem roleTable_lawful (capacity : Option Nat) :
    (roleTable capacity).Lawful Roles.Lockstep Roles.view Shared where
  find h k := h.assignments.value? k
  save {t t' k role} h hsave := by
    obtain ⟨h', hassign⟩ := h.save hsave
    refine ⟨h', ?_⟩
    unfold Roles.view
    rw [hassign]
    exact (h.assignments.placed_insert k role).mono Roles.byGroup_clash
  remove {t} h k := ⟨_, _, rfl, h.remove k, (h.assignments.placed_erase k).mono Roles.byGroup_clash⟩
  memberships {t} h m := by
    obtain ⟨gs, hgs, hmem⟩ := h.groupsOf m
    refine ⟨gs, hgs, fun g => ?_⟩
    rw [hmem, ← h.paired ⟨g, m⟩, Option.isSome_iff_exists]
    exact exists_congr fun role => h.assignments.values_eq_some_iff.symm
  size h := h.assignments.counts

/-! ## The five caches -/

/-- The databases of all tables are in lockstep. -/
abbrev Good : State → Prop := Tables.Good Credentials.Lockstep Links.Good Roles.Lockstep

theorem good_empty : Good empty where
  credentials := Credentials.lockstep_empty
  deviceGroups := stored_empty
  profileGroups := stored_empty
  groupOrgs := stored_empty
  roles := Roles.lockstep_empty

theorem regular (capacity : Option Nat) : (caches capacity).Regular Good Shared :=
  Tables.regular (credentialTable_lawful capacity) (linkTable_lawful capacity)
    (roleTable_lawful capacity)

theorem facts_empty (capacity : Option Nat) : (caches capacity).facts empty = fun _ => none := by
  funext q
  cases q <;> rfl

/-- Stores that open are as large as the settings say. -/
theorem eq_caches_of_openStores {maxSizeMb : UInt64} {rootIsFile : Bool} {c : Caches State}
    (h : openStores maxSizeMb rootIsFile = .ok c) : c = caches (some (bytesOf maxSizeMb)) := by
  unfold openStores at h
  split at h
  · cases h
  · split at h
    · cases h
    · exact (Except.ok.inj h).symm

/-- Without a bound on the store no edit fails. -/
theorem total : (caches none).Total Good :=
  Tables.total (credentialTable_lawful none) (linkTable_lawful none) (roleTable_lawful none)
    (fun h k d => h.exists_save k d) (fun _ _ _ => ⟨_, rfl⟩) fun _ _ _ => ⟨_, rfl⟩

end AccessCache.Disk
