import AccessCache.Memory.Caches
import AccessCache.Proofs.Memory.Index
import AccessCache.Proofs.Tables

/-!
# Tables in memory

The reverse indices mirror the forward tables, so that the tables are lawful and nothing stands in
another's place. Tables with the same entries are equal, indices included.
-/

namespace AccessCache

open Std

namespace Memory

/-! ## Credentials -/

namespace Credentials

/-- The index lists the keys of each device. -/
structure Mirrored (t : Credentials) : Prop where
  tidy : t.keys.Tidy
  mem : ∀ d k, k ∈ t.keys.bucket d ↔ t.devices[k]? = some d

theorem mirrored_empty : Mirrored .empty where
  tidy := Index.tidy_empty
  mem d k := by simp [empty, Index.bucket]

variable {t u : Credentials}

theorem Mirrored.mem_released (h : Mirrored t) (k : CredentialKey) (d' : DeviceId)
    (k' : CredentialKey) :
    k' ∈ (t.released k).bucket d' ↔ k' ≠ k ∧ t.devices[k']? = some d' := by
  unfold released
  cases hk : t.devices[k]? with
  | none =>
    rw [h.mem]
    constructor
    · intro hd
      refine ⟨?_, hd⟩
      rintro rfl
      rw [hk] at hd
      cases hd
    · exact And.right
  | some previous =>
    rw [Index.mem_bucket_detach, h.mem]
    constructor
    · rintro ⟨hd, hne⟩
      refine ⟨?_, hd⟩
      rintro rfl
      rw [hk] at hd
      exact hne ⟨(Option.some.inj hd).symm, rfl⟩
    · rintro ⟨hne, hd⟩
      exact ⟨hd, fun he => hne he.2⟩

theorem Mirrored.save (h : Mirrored t) (k : CredentialKey) (d : DeviceId) :
    Mirrored (t.save k d) where
  tidy := by
    apply Index.Tidy.attach
    unfold released
    cases t.devices[k]? with
    | none => exact h.tidy
    | some previous => exact h.tidy.detach previous k
  mem d' k' := by
    show k' ∈ ((t.released k).attach d k).bucket d' ↔ (t.devices.insert k d)[k']? = some d'
    rw [Index.mem_bucket_attach, h.mem_released, getElem?_insert_eq]
    by_cases hk : k' = k
    · simp [hk, eq_comm]
    · simp [hk]

theorem Mirrored.find_remove (h : Mirrored t) (d : DeviceId) (k : CredentialKey) :
    (t.remove d).2.find k = (t.find k).filter (· ≠ d) := by
  have hmem := h.mem d k
  unfold Credentials.remove find
  cases hd : t.keys[d]? with
  | none =>
    rw [Index.bucket_of_none hd] at hmem
    cases hk : t.devices[k]? with
    | none => rfl
    | some d' =>
      have hne : d' ≠ d := by
        rintro rfl
        simp [hk] at hmem
      simp [Option.filter, hne]
  | some ks =>
    rw [Index.bucket_of_getElem? hd] at hmem
    simp only
    rw [getElem?_foldl_erase]
    simp only [ExtTreeSet.mem_toList, hmem]
    cases t.devices[k]? with
    | none => simp
    | some d' => by_cases hne : d' = d <;> simp [Option.filter, hne]

theorem Mirrored.remove (h : Mirrored t) (d : DeviceId) : Mirrored (t.remove d).2 where
  tidy := by
    unfold Credentials.remove
    cases t.keys[d]? with
    | none => exact h.tidy
    | some ks => exact h.tidy.erase d
  mem d' k := by
    have hkeys : k ∈ (t.remove d).2.keys.bucket d' ↔ d' ≠ d ∧ k ∈ t.keys.bucket d' := by
      unfold Credentials.remove
      cases hd : t.keys[d]? with
      | none =>
        have hb := Index.bucket_of_none hd
        constructor
        · intro hk
          refine ⟨?_, hk⟩
          rintro rfl
          simp [hb] at hk
        · exact And.right
      | some ks => exact Index.mem_bucket_erase
    have hfind := h.find_remove d k
    unfold find at hfind
    rw [hkeys, h.mem, hfind]
    cases t.devices[k]? with
    | none => simp
    | some e =>
      by_cases he : e = d
      · simp [Option.filter, he, eq_comm]
      · simp only [Option.filter, he, ne_eq, not_false_eq_true, decide_true, if_true,
          Option.some.injEq, and_iff_right_iff_imp]
        rintro rfl
        exact he

/-- The number of keys that go with a device. -/
theorem Mirrored.counts_remove (h : Mirrored t) (d : DeviceId) :
    Counts (t.remove d).1 fun k => (t.find k).filter (· = d) := by
  have hmem : ∀ k, k ∈ t.keys.bucket d ↔ ((t.find k).filter (· = d)).isSome := by
    intro k
    rw [h.mem, find]
    cases t.devices[k]? with
    | none => simp
    | some d' => by_cases hd : d' = d <;> simp [Option.filter, hd]
  have hsize : (t.remove d).1 = (t.keys.bucket d).size := by
    unfold Credentials.remove Index.bucket
    cases t.keys[d]? <;> rfl
  refine ⟨(t.keys.bucket d).toList, ?_, fun k => ?_, ?_⟩
  · refine ExtTreeSet.distinct_toList.imp fun hne heq => hne ?_
    rw [heq]
    exact ReflCmp.compare_self
  · rw [ExtTreeSet.mem_toList, hmem]
  · rw [hsize, ExtTreeSet.length_toList]

/-- The keys and their devices determine the index. -/
theorem Mirrored.ext (ht : Mirrored t) (hu : Mirrored u) (h : ∀ k, t.find k = u.find k) :
    t = u := by
  have hdevices : t.devices = u.devices := ExtTreeMap.ext_getElem? h
  have hkeys : t.keys = u.keys := by
    refine ht.tidy.ext_of_mem hu.tidy fun d k => ?_
    rw [ht.mem, hu.mem, hdevices]
  cases t
  cases u
  cases hdevices
  cases hkeys
  rfl

end Credentials

theorem credentialTable_lawful :
    credentialTable.Lawful Credentials.Mirrored (fun t k => t.find k) Eq where
  find _ _ := rfl
  save {t _ k d} h hsave := by
    cases hsave
    exact ⟨h.save k d, placed_insert t.devices k d⟩
  remove h d := ⟨_, _, rfl, h.remove d, h.find_remove d, h.counts_remove d⟩
  size {t} _ := counts_size t.devices

/-! ## Links -/

theorem linkTable_lawful (c p : Noun) :
    (linkTable c p).Lawful (fun _ => True) (fun t k => t[k]?) Eq where
  find _ _ := rfl
  save {t _ k v} _ hsave := by
    cases hsave
    exact ⟨trivial, placed_insert t k v⟩
  remove {t} _ k := ⟨_, _, rfl, trivial, placed_erase t k⟩
  size {t} _ := counts_size t

/-! ## Roles -/

namespace Roles

/-- The index lists the groups in which each member has a role. -/
structure Mirrored (t : Roles) : Prop where
  tidy : t.groups.Tidy
  mem : ∀ m g, g ∈ t.groups.bucket m ↔ (t.roles[(⟨g, m⟩ : RoleKey)]?).isSome

theorem mirrored_empty : Mirrored .empty where
  tidy := Index.tidy_empty
  mem d k := by simp [empty, Index.bucket]

variable {t u : Roles}

theorem Mirrored.save (h : Mirrored t) (k : RoleKey) (role : Role) : Mirrored (t.save k role) where
  tidy := h.tidy.attach _ _
  mem m g := by
    show g ∈ (t.groups.attach k.member k.group).bucket m ↔
      ((t.roles.insert k role)[(⟨g, m⟩ : RoleKey)]?).isSome
    rw [Index.mem_bucket_attach, h.mem, getElem?_insert_eq]
    by_cases hk : (⟨g, m⟩ : RoleKey) = k
    · subst hk
      simp
    · have hne : ¬ (m = k.member ∧ g = k.group) := by
        rintro ⟨rfl, rfl⟩
        exact hk rfl
      simp [hk, hne]

theorem remove_of_contains {k : RoleKey} (hk : t.roles.contains k) :
    t.remove k = (true, ⟨t.roles.erase k, t.groups.detach k.member k.group⟩) := if_pos hk

theorem remove_of_not_contains {k : RoleKey} (hk : ¬ t.roles.contains k) :
    t.remove k = (false, t) := if_neg hk

theorem find_remove (t : Roles) (k k' : RoleKey) :
    (t.remove k).2.find k' = if k' = k then none else t.find k' := by
  by_cases hk : t.roles.contains k
  · rw [remove_of_contains hk]
    exact getElem?_erase_eq t.roles k k'
  · rw [remove_of_not_contains hk]
    split_ifs with h
    · subst h
      rw [ExtTreeMap.contains_eq_isSome_getElem?, Option.not_isSome_iff_eq_none] at hk
      exact hk
    · rfl

theorem Mirrored.remove (h : Mirrored t) (k : RoleKey) : Mirrored (t.remove k).2 := by
  by_cases hk : t.roles.contains k
  · rw [remove_of_contains hk]
    refine ⟨h.tidy.detach _ _, fun m g => ?_⟩
    rw [Index.mem_bucket_detach, h.mem, getElem?_erase_eq]
    by_cases hgm : (⟨g, m⟩ : RoleKey) = k
    · subst hgm
      simp
    · have hne : ¬ (m = k.member ∧ g = k.group) := by
        rintro ⟨rfl, rfl⟩
        exact hgm rfl
      simp [hgm, hne]
  · rw [remove_of_not_contains hk]
    exact h

/-- The roles determine the index. -/
theorem Mirrored.ext (ht : Mirrored t) (hu : Mirrored u) (h : ∀ k, t.find k = u.find k) :
    t = u := by
  have hroles : t.roles = u.roles := ExtTreeMap.ext_getElem? h
  have hgroups : t.groups = u.groups := by
    refine ht.tidy.ext_of_mem hu.tidy fun m g => ?_
    rw [ht.mem, hu.mem, hroles]
  cases t
  cases u
  cases hroles
  cases hgroups
  rfl

end Roles

theorem roleTable_lawful : roleTable.Lawful Roles.Mirrored (fun t k => t.find k) Eq where
  find _ _ := rfl
  save {t _ k v} h hsave := by
    cases hsave
    exact ⟨h.save k v, placed_insert t.roles k v⟩
  remove {t} h k := by
    refine ⟨(t.remove k).1, (t.remove k).2, rfl, h.remove k, ?_, fun k' hk => .inl ?_⟩
    · rw [Roles.find_remove, if_pos rfl]
    · rw [Roles.find_remove, if_neg hk]
  memberships h m := ⟨_, rfl, h.mem m⟩
  size {t} _ := counts_size t.roles

/-! ## The five caches -/

/-- The indices of all tables mirror them. -/
abbrev Good : State → Prop :=
  Tables.Good Credentials.Mirrored (fun _ _ _ => True) Roles.Mirrored

theorem good_empty : Good empty where
  credentials := Credentials.mirrored_empty
  deviceGroups := trivial
  profileGroups := trivial
  groupOrgs := trivial
  roles := Roles.mirrored_empty

theorem regular : caches.Regular Good Eq :=
  Tables.regular credentialTable_lawful linkTable_lawful roleTable_lawful

theorem total : caches.Total Good :=
  Tables.total credentialTable_lawful linkTable_lawful roleTable_lawful (fun _ _ _ => ⟨_, rfl⟩)
    (fun _ _ _ => ⟨_, rfl⟩) (fun _ _ _ => ⟨_, rfl⟩)

theorem facts_eq {s : State} (h : Good s) :
    caches.facts s = Tables.view (fun t k => t.find k) (fun _ _ t k => t[k]?)
      (fun t k => t.find k) s :=
  Tables.facts_eq credentialTable_lawful linkTable_lawful roleTable_lawful h

theorem facts_empty : caches.facts empty = fun _ => none := by
  funext q
  cases q <;> rfl

/-- Facts and counters determine the state. -/
theorem state_ext {s u : State} (hs : Good s) (hu : Good u)
    (hfacts : caches.facts s = caches.facts u)
    (hcounters : caches.counters s = caches.counters u) : s = u := by
  rw [facts_eq hs, facts_eq hu] at hfacts
  rw [caches, Tables.counters_eq, Tables.counters_eq] at hcounters
  have hq : ∀ q, Tables.view _ _ _ s q = Tables.view _ _ _ u q := congrFun hfacts
  have hcredentials : s.credentials.table = u.credentials.table :=
    hs.credentials.ext hu.credentials fun k => Id.map_text_inj (hq (.credential k))
  have hdevices : s.deviceGroups.table = u.deviceGroups.table :=
    ExtTreeMap.ext_getElem? fun d => Id.map_text_inj (hq (.deviceGroup d))
  have hprofiles : s.profileGroups.table = u.profileGroups.table :=
    ExtTreeMap.ext_getElem? fun p => Id.map_text_inj (hq (.profileGroup p))
  have horgs : s.groupOrgs.table = u.groupOrgs.table :=
    ExtTreeMap.ext_getElem? fun g => Id.map_text_inj (hq (.groupOrg g))
  have hroles : s.roles.table = u.roles.table :=
    hs.roles.ext hu.roles fun k => Id.map_text_inj (hq (.role k))
  have hr : ∀ r, s.countersOf r = u.countersOf r := congrFun hcounters
  have h₁ : s.credentials.counters = u.credentials.counters := hr .credential
  have h₂ : s.deviceGroups.counters = u.deviceGroups.counters := hr .deviceGroup
  have h₃ : s.profileGroups.counters = u.profileGroups.counters := hr .profileGroup
  have h₄ : s.groupOrgs.counters = u.groupOrgs.counters := hr .groupOrg
  have h₅ : s.roles.counters = u.roles.counters := hr .role
  obtain ⟨⟨_, _⟩, ⟨_, _⟩, ⟨_, _⟩, ⟨_, _⟩, ⟨_, _⟩⟩ := s
  obtain ⟨⟨_, _⟩, ⟨_, _⟩, ⟨_, _⟩, ⟨_, _⟩, ⟨_, _⟩⟩ := u
  simp_all

end Memory

end AccessCache
