import AccessCache.Cache.Tabled
import AccessCache.Proofs.Act
import Std.Data.ExtTreeMap

/-!
# Lawful tables

What the operations of a table mean for its entries. A state is read by a view, which gives the
value of each key; only good states are. Two keys may stand in the same place: a write to one of
them then takes the entry of the other away, and no operation does anything else to it.
-/

namespace AccessCache

variable {τ κ ν : Type}

/-- The entry of `k` becomes `v`. Entries of other keys stay, or are lost where `clash` puts them
in the place of `k`. -/
structure Placed (clash : κ → κ → Prop) (k : κ) (v : Option ν) (f f' : κ → Option ν) : Prop where
  self : f' k = v
  other : ∀ k', k' ≠ k → f' k' = f k' ∨ clash k k' ∧ f' k' = none

theorem Placed.mono {clash clash' : κ → κ → Prop} {k : κ} {v : Option ν} {f f' : κ → Option ν}
    (h : Placed clash k v f f') (hc : ∀ k k', clash k k' → clash' k k') :
    Placed clash' k v f f' :=
  ⟨h.self, fun k' hne => (h.other k' hne).imp_right (And.imp_left (hc k k'))⟩

/-- There are `n` keys with a value. -/
def Counts (n : Nat) (f : κ → Option ν) : Prop :=
  ∃ ks : List κ, ks.Nodup ∧ (∀ k, k ∈ ks ↔ (f k).isSome) ∧ n = ks.length

/-- Keys with the same members are equally many. -/
theorem Counts.unique {n n' : Nat} {f f' : κ → Option ν} (h : Counts n f) (h' : Counts n' f')
    (hf : ∀ k, (f k).isSome = (f' k).isSome) : n = n' := by
  obtain ⟨ks, hnd, hmem, rfl⟩ := h
  obtain ⟨ks', hnd', hmem', rfl⟩ := h'
  apply List.Perm.length_eq
  rw [List.perm_ext_iff_of_nodup hnd hnd']
  intro k
  rw [hmem, hmem', hf]

/-- Counting the keys of one kind among others. -/
theorem Counts.image {κ' ν' : Type} {n : Nat} {f : κ → Option ν} {f' : κ' → Option ν'}
    (h : Counts n f) {g : κ → κ'} (hg : ∀ k l, g k = g l → k = l)
    (hf : ∀ k, (f' (g k)).isSome = (f k).isSome) (hrest : ∀ k', (∀ k, k' ≠ g k) → f' k' = none) :
    Counts n f' := by
  obtain ⟨ks, hnd, hmem, rfl⟩ := h
  refine ⟨ks.map g, ?_, fun k' => ?_, by simp⟩
  · exact List.pairwise_map.mpr (hnd.imp fun hne h => hne (hg _ _ h))
  · rw [List.mem_map]
    constructor
    · rintro ⟨k, hk, rfl⟩
      rw [hf]
      exact (hmem k).mp hk
    · intro hk'
      by_cases hex : ∃ k, k' = g k
      · obtain ⟨k, rfl⟩ := hex
        rw [hf] at hk'
        exact ⟨k, (hmem k).mpr hk', rfl⟩
      · rw [hrest k' fun k h => hex ⟨k, h⟩] at hk'
        cases hk'

/-! ## Maps -/

section Maps

open Std

variable [Ord κ] [TransOrd κ] [LawfulEqOrd κ] (m : ExtTreeMap κ ν)

theorem counts_size : Counts m.size fun k : κ => m[k]? := by
  refine ⟨m.keys, m.nodup_keys, fun k => ?_, m.length_keys.symm⟩
  rw [ExtTreeMap.mem_keys, ExtTreeMap.mem_iff_isSome_getElem?]

theorem getElem?_insert_eq [DecidableEq κ] (k k' : κ) (v : ν) :
    (m.insert k v)[k']? = if k' = k then some v else m[k']? := by
  rw [ExtTreeMap.getElem?_insert]
  simp only [LawfulEqCmp.compare_eq_iff_eq, @eq_comm _ k k']

theorem getElem?_erase_eq [DecidableEq κ] (k k' : κ) :
    (m.erase k)[k']? = if k' = k then none else m[k']? := by
  rw [ExtTreeMap.getElem?_erase]
  simp only [LawfulEqCmp.compare_eq_iff_eq, @eq_comm _ k k']

theorem getElem?_foldl_erase [DecidableEq κ] (ks : List κ) (k : κ) :
    (ks.foldl (·.erase ·) m)[k]? = if k ∈ ks then none else m[k]? := by
  induction ks generalizing m with
  | nil => simp
  | cons k' ks ih =>
    rw [List.foldl_cons, ih, getElem?_erase_eq]
    by_cases h : k = k' <;> simp [h]

/-- Writing into a map puts the value in its place. -/
theorem placed_insert [DecidableEq κ] {clash : κ → κ → Prop} (k : κ) (v : ν) :
    Placed clash k (some v) (fun k : κ => m[k]?) fun k' : κ => (m.insert k v)[k']? where
  self := by simp
  other k' h := .inl (by simp [getElem?_insert_eq, h])

theorem placed_erase [DecidableEq κ] {clash : κ → κ → Prop} (k : κ) :
    Placed clash k none (fun k : κ => m[k]?) fun k' : κ => (m.erase k)[k']? where
  self := by simp
  other k' h := .inl (by simp [getElem?_erase_eq, h])

end Maps

/-! ## Laws -/

/-- Keys stand in the same place where their texts share it. -/
def RoleKey.Clash (shared : String → String → Prop) (k k' : RoleKey) : Prop :=
  shared k.group.text k'.group.text ∧ shared k.member.text k'.member.text

structure CredentialTable.Lawful (t : CredentialTable τ) (good : τ → Prop)
    (view : τ → CredentialKey → Option DeviceId) (shared : String → String → Prop) : Prop where
  find : ∀ {s}, good s → ∀ k, t.find k s = .ok (view s k)
  save : ∀ {s s' k d}, good s → t.save k d s = .ok s' →
    good s' ∧ Placed (fun k k' => shared k.secret k'.secret) k (some d) (view s) (view s')
  remove : ∀ {s}, good s → ∀ d, ∃ n s', t.remove d s = .ok (n, s') ∧ good s' ∧
    (∀ k, view s' k = (view s k).filter (· ≠ d)) ∧
    Counts n fun k => (view s k).filter (· = d)
  size : ∀ {s}, good s → Counts (t.size s) (view s)

structure LinkTable.Lawful {c p : Noun} (t : LinkTable τ c p) (good : τ → Prop)
    (view : τ → Id c → Option (Id p)) (shared : String → String → Prop) : Prop where
  find : ∀ {s}, good s → ∀ k, t.find k s = .ok (view s k)
  save : ∀ {s s' k v}, good s → t.save k v s = .ok s' →
    good s' ∧ Placed (fun k k' => shared k.text k'.text) k (some v) (view s) (view s')
  remove : ∀ {s}, good s → ∀ k, ∃ b s', t.remove k s = .ok (b, s') ∧ good s' ∧
    Placed (fun k k' => shared k.text k'.text) k none (view s) (view s')
  size : ∀ {s}, good s → Counts (t.size s) (view s)

structure RoleTable.Lawful (t : RoleTable τ) (good : τ → Prop) (view : τ → RoleKey → Option Role)
    (shared : String → String → Prop) : Prop where
  find : ∀ {s}, good s → ∀ k, t.find k s = .ok (view s k)
  save : ∀ {s s' k v}, good s → t.save k v s = .ok s' →
    good s' ∧ Placed (RoleKey.Clash shared) k (some v) (view s) (view s')
  remove : ∀ {s}, good s → ∀ k, ∃ b s', t.remove k s = .ok (b, s') ∧ good s' ∧
    Placed (RoleKey.Clash shared) k none (view s) (view s')
  memberships : ∀ {s}, good s → ∀ m, ∃ gs, t.memberships m s = .ok gs ∧
    ∀ g, g ∈ gs ↔ (view s ⟨g, m⟩).isSome
  size : ∀ {s}, good s → Counts (t.size s) (view s)

/-! ## Counted tables -/

namespace Counted

variable {α : Type} {s : Counted τ} (r : Relation)

theorem lookup_act (key : String) (entry : Bool → Entry) {find : τ → Except StoreError (Option α)}
    {found : Option α} (hf : find s.table = .ok found) :
    ((lookup r key entry find).act s).value = found.elim (.error (.notFound r key)) .ok ∧
      ((lookup r key entry find).act s).state =
        { s with counters := s.counters.record found.isSome } := by
  cases found <;> simp [lookup, Call.now, hf]

theorem change_act (entry : α → Entry) {f : τ → Except StoreError (α × τ)} {a : α} {t : τ}
    (hf : f s.table = .ok (a, t)) :
    ((change r entry f).act s).value = .ok () ∧
      ((change r entry f).act s).state = { s with table := t } := by
  simp [change, Call.now, hf]

theorem change_act_error (entry : α → Entry) {f : τ → Except StoreError (α × τ)} {e : StoreError}
    (hf : f s.table = .error e) :
    ((change r entry f).act s).value = .error (.unavailable r (.store e)) ∧
      ((change r entry f).act s).state = s := by
  simp [change, Call.now, failed, hf]

theorem query_act {f : τ → Except StoreError α} {a : α} (hf : f s.table = .ok a) :
    ((query r f).act s).value = .ok a ∧ ((query r f).act s).state = s := by
  simp [query, Call.now, hf]

theorem change_value {r : Relation} {entry : α → Entry} {f : τ → Except StoreError (α × τ)}
    (hf : ∃ a t, f s.table = .ok (a, t)) : ((change r entry f).act s).value = .ok () := by
  obtain ⟨a, t, hok⟩ := hf
  exact (change_act r entry hok).1

theorem save_value {r : Relation} {e : Entry} (save : τ → Except StoreError τ)
    (h : ∃ t, save s.table = .ok t) :
    ((change r (fun _ => e) fun t => (((), ·)) <$> save t).act s).value = .ok () := by
  obtain ⟨t, hok⟩ := h
  refine change_value ⟨(), t, ?_⟩
  rw [hok]
  rfl

/-- A change in a part of a state takes place there, or fails and changes nothing. -/
theorem change_on {σ : Type} (p : Part σ (Counted τ)) (entry : α → Entry)
    (f : τ → Except StoreError (α × τ)) (s : σ) :
    (∃ a t, f (p.get s).table = .ok (a, t) ∧ (((change r entry f).on p).act s).value = .ok () ∧
        (((change r entry f).on p).act s).state = p.set { p.get s with table := t } s) ∨
      (∃ err, (((change r entry f).on p).act s).value = .error err) ∧
        (((change r entry f).on p).act s).state = s := by
  cases hf : f (p.get s).table with
  | ok at' =>
    obtain ⟨a, t⟩ := at'
    have hact := change_act r entry hf
    exact .inl ⟨a, t, rfl, hact.1, congrArg (p.set · s) hact.2⟩
  | error e =>
    have hact := change_act_error r entry hf
    refine .inr ⟨⟨_, hact.1⟩, ?_⟩
    exact (congrArg (p.set · s) hact.2).trans (p.set_get s)

theorem of_map_unit {x : Except StoreError τ} {t : τ} (h : (((), ·)) <$> x = .ok ((), t)) :
    x = .ok t := by
  cases x with
  | error e => cases h
  | ok t' =>
    cases h
    rfl

end Counted

end AccessCache
