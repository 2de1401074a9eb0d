import AccessCache.Proofs.Disk.Tables
import AccessCache.Proofs.Memory.Tables

/-!
# Steady caches

What calls leave alone in any state, also in one that no calls lead to and in databases that hold
no records at all: an edit that fails changes nothing, and nothing is found after a removal that was
not found before (`Tables.steady`).
-/

namespace AccessCache

variable {σ τ α : Type}

structure Caches.Steady (c : Caches σ) : Prop where
  failed : ∀ {e s err}, ((c.edit e).act s).value = .error err → ((c.edit e).act s).state = s
  memberships : ∀ m s, ((c.roles.membershipsOf m).act s).state = s
  removed : ∀ x s, (c.facts ((c.edit (.remove x)).act s).state).Within (c.facts s)

/-- After removals there is nothing that was not there before. -/
theorem Caches.Steady.after_within {c : Caches σ} (h : c.Steady) {es : List Edit}
    (hes : ∀ e ∈ es, ∃ x, e = .remove x) (s : σ) :
    (c.facts (c.after es s)).Within (c.facts s) := by
  induction es generalizing s with
  | nil => exact fun _ _ hv => hv
  | cons e es ih =>
    obtain ⟨⟨x, rfl⟩, hes'⟩ := List.forall_mem_cons.mp hes
    exact (ih hes' _).trans (h.removed x s)

theorem Caches.facts_eq_some_iff {c : Caches σ} {s : σ} {q : Query} {v : String} :
    c.facts s q = some v ↔ ((c.lookup q).act s).value = .ok ⟨v⟩ := by
  unfold facts
  cases ((c.lookup q).act s).value with
  | error e => exact iff_of_false nofun nofun
  | ok a =>
    constructor
    · rintro ⟨⟩
      rfl
    · rintro ⟨⟩
      rfl

/-! ## Tables -/

/-- A removal adds nothing to what is found. -/
def CredentialTable.Shrinks (t : CredentialTable τ) : Prop :=
  ∀ {d s n s'}, t.remove d s = .ok (n, s') →
    ∀ {k v}, t.find k s' = .ok (some v) → t.find k s = .ok (some v)

def LinkTable.Shrinks {c p : Noun} (t : LinkTable τ c p) : Prop :=
  ∀ {k s b s'}, t.remove k s = .ok (b, s') →
    ∀ {k' v}, t.find k' s' = .ok (some v) → t.find k' s = .ok (some v)

def RoleTable.Shrinks (t : RoleTable τ) : Prop :=
  ∀ {k s b s'}, t.remove k s = .ok (b, s') →
    ∀ {k' v}, t.find k' s' = .ok (some v) → t.find k' s = .ok (some v)

namespace Counted

theorem lookup_value_eq_ok_iff {r : Relation} {key : String} {entry : Bool → Entry}
    {find : τ → Except StoreError (Option α)} {s : Counted τ} {a : α} :
    ((lookup r key entry find).act s).value = .ok a ↔ find s.table = .ok (some a) := by
  cases hfind : find s.table with
  | error e => simp [lookup, Call.now, failed, hfind]
  | ok found =>
    rw [(lookup_act r key entry hfind).1]
    cases found <;> simp

theorem query_state (r : Relation) (f : τ → Except StoreError α) (s : Counted τ) :
    ((query r f).act s).state = s := by
  cases hf : f s.table with
  | error e => simp [query, Call.now, failed, hf]
  | ok a => exact (query_act r hf).2

/-- A change in a part of a state that fails changes nothing. -/
theorem state_of_change_error {r : Relation} {p : Part σ (Counted τ)} {entry : α → Entry}
    {f : τ → Except StoreError (α × τ)} {s : σ} {err : CacheError}
    (h : (((change r entry f).on p).act s).value = .error err) :
    (((change r entry f).on p).act s).state = s := by
  rcases change_on r p entry f s with ⟨_, _, _, hvalue, _⟩ | ⟨_, hsame⟩
  · cases hvalue.symm.trans h
  · exact hsame

end Counted

namespace Tables

variable {C R : Type} {L : Noun → Noun → Type} (ct : CredentialTable C)
  (lt : (c p : Noun) → LinkTable (L c p) c p) (rt : RoleTable R)

/-- What the tables have for a query. -/
def find (s : Tables C L R) : (q : Query) → Except StoreError (Option (Id q.noun))
  | .credential k => ct.find k s.credentials.table
  | .deviceGroup d => (lt _ _).find d s.deviceGroups.table
  | .profileGroup p => (lt _ _).find p s.profileGroups.table
  | .groupOrg g => (lt _ _).find g s.groupOrgs.table
  | .role k => rt.find k s.roles.table

variable {ct lt rt} {s : Tables C L R}

theorem facts_eq_some_iff {q : Query} {v : String} :
    (caches ct lt rt).facts s q = some v ↔ find ct lt rt s q = .ok (some ⟨v⟩) := by
  rw [Caches.facts_eq_some_iff]
  cases q <;> exact Counted.lookup_value_eq_ok_iff

/-- A change in one part that adds nothing there adds nothing at all. -/
theorem within_of_change {τ α : Type} (r : Relation) (p : Part (Tables C L R) (Counted τ))
    (entry : α → Entry) {f : τ → Except StoreError (α × τ)}
    (h : ∀ a t, f (p.get s).table = .ok (a, t) → ∀ q v,
      find ct lt rt (p.set { p.get s with table := t } s) q = .ok (some v) →
        find ct lt rt s q = .ok (some v)) :
    ((caches ct lt rt).facts (((Counted.change r entry f).on p).act s).state).Within
      ((caches ct lt rt).facts s) := by
  rcases Counted.change_on r p entry f s with ⟨a, t, hok, _, hstate⟩ | ⟨_, hsame⟩
  · intro q v hv
    rw [hstate, facts_eq_some_iff] at hv
    exact facts_eq_some_iff.mpr (h a t hok q _ hv)
  · rw [hsame]
    exact fun _ _ hv => hv

/-- Caches over tables whose removals add nothing are steady. -/
theorem steady (hc : ct.Shrinks) (hl : ∀ c p, (lt c p).Shrinks) (hr : rt.Shrinks) :
    (caches ct lt rt).Steady where
  failed {e s err} h := by
    rcases e with f | x
    · cases f <;> exact Counted.state_of_change_error h
    · cases x <;> exact Counted.state_of_change_error h
  memberships m s :=
    (congrArg (rolePart.set · s) (Counted.query_state ..)).trans (rolePart.set_get s)
  removed x s := by
    cases x with
    | credentials d =>
      refine within_of_change .credential credentialPart _ fun n t hok q v => ?_
      cases q with
      | credential k => exact hc hok
      | _ => exact id
    | deviceGroup d =>
      refine within_of_change .deviceGroup devicePart _ fun b t hok q v => ?_
      cases q with
      | deviceGroup d' => exact hl _ _ hok
      | _ => exact id
    | profileGroup p =>
      refine within_of_change .profileGroup profilePart _ fun b t hok q v => ?_
      cases q with
      | profileGroup p' => exact hl _ _ hok
      | _ => exact id
    | groupOrg g =>
      refine within_of_change .groupOrg orgPart _ fun b t hok q v => ?_
      cases q with
      | groupOrg g' => exact hl _ _ hok
      | _ => exact id
    | role k =>
      refine within_of_change .role rolePart _ fun b t hok q v => ?_
      cases q with
      | role k' => exact hr hok
      | _ => exact id

end Tables

/-! ## In memory -/

namespace Memory

theorem credentialTable_shrinks : credentialTable.Shrinks := by
  intro d t n t' hremove k v hfind
  obtain rfl : (t.remove d).2 = t' := congrArg Prod.snd (Except.ok.inj hremove)
  have hv : (t.remove d).2.devices[k]? = some v := Except.ok.inj hfind
  refine congrArg Except.ok (?_ : t.devices[k]? = some v)
  unfold Credentials.remove at hv
  cases hd : t.keys[d]? with
  | none =>
    rw [hd] at hv
    exact hv
  | some ks =>
    rw [hd] at hv
    simp only [getElem?_foldl_erase] at hv
    split_ifs at hv
    exact hv

theorem linkTable_shrinks (c p : Noun) : (linkTable c p).Shrinks := by
  rintro k t b _ ⟨⟩ k' v hfind
  have hv : (t.erase k)[k']? = some v := Except.ok.inj hfind
  rw [getElem?_erase_eq] at hv
  split_ifs at hv
  exact congrArg Except.ok hv

theorem roleTable_shrinks : roleTable.Shrinks := by
  intro k t b t' hremove k' v hfind
  obtain rfl : (t.remove k).2 = t' := congrArg Prod.snd (Except.ok.inj hremove)
  have hv : (t.remove k).2.find k' = some v := Except.ok.inj hfind
  rw [Roles.find_remove] at hv
  split_ifs at hv
  exact congrArg Except.ok hv

theorem steady : caches.Steady :=
  Tables.steady credentialTable_shrinks linkTable_shrinks roleTable_shrinks

end Memory

/-! ## On disk -/

namespace Disk

/-- Whatever a database holds, erasing adds nothing to what can be read. -/
theorem Database.value?_of_erase {κ ν : Type} [Content κ] [Content ν] [DecidableEq κ]
    {db : Database} {b place : Bytes} {k : κ} {v : ν}
    (h : value? (db.erase b) place k = .ok (some v)) : db.value? place k = .ok (some v) := by
  unfold value? record? at h ⊢
  rw [getElem?_erase_eq] at h
  by_cases hb : place = b
  · rw [if_pos hb] at h
    cases h
  · rw [if_neg hb] at h
    exact h

theorem Credentials.find_of_drop {k : CredentialKey} {v : DeviceId} {t : Credentials}
    {es : List (Bytes × Record DeviceId CredentialKey)}
    (h : (es.foldl drop t).find k = .ok (some v)) : t.find k = .ok (some v) := by
  induction es generalizing t with
  | nil => exact h
  | cons e es ih => exact Database.value?_of_erase (ih h)

theorem credentialTable_shrinks (capacity : Option Nat) : (credentialTable capacity).Shrinks := by
  intro d t n t' hremove k v hfind
  obtain ⟨found, _, hdrop⟩ := Steps.bind_eq_ok_iff.mp hremove
  cases hdrop
  exact Credentials.find_of_drop hfind

theorem linkTable_shrinks (capacity : Option Nat) (c p : Noun) :
    (linkTable capacity c p).Shrinks := by
  rintro k t b _ ⟨⟩ k' v hfind
  exact Database.value?_of_erase hfind

theorem roleTable_shrinks (capacity : Option Nat) : (roleTable capacity).Shrinks := by
  rintro k t b _ ⟨⟩ k' v hfind
  exact Database.value?_of_erase hfind

theorem steady (capacity : Option Nat) : (caches capacity).Steady :=
  Tables.steady (credentialTable_shrinks capacity) (linkTable_shrinks capacity)
    (roleTable_shrinks capacity)

end Disk

end AccessCache
