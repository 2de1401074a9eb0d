import AccessCache.Index
import Mathlib.Tactic.ByContra
import Mathlib.Tactic.SplitIfs

/-!
# Members of buckets

Attaching and detaching change the membership of one pair. As no bucket of a tidy index is empty,
its members determine it (`Index.ext_of_mem`).
-/

namespace AccessCache.Index

open Std

variable {κ ν : Type} [Ord κ] [Ord ν] [TransOrd κ] [TransOrd ν] {i j : Index κ ν} {k k' : κ}
  {v v' : ν}

/-- No bucket is empty. -/
def Tidy (i : Index κ ν) : Prop :=
  ∀ (k : κ) (b : ExtTreeSet ν), i[k]? = some b → b.isEmpty = false

theorem tidy_empty : Tidy (∅ : Index κ ν) := by
  intro k b h
  simp at h

theorem Tidy.erase (h : Tidy i) (k : κ) : Tidy (i.erase k) := by
  intro k' b hb
  rw [ExtTreeMap.getElem?_erase] at hb
  split_ifs at hb
  exact h k' b hb

theorem Tidy.insert (h : Tidy i) (k : κ) {b : ExtTreeSet ν} (hb : b.isEmpty = false) :
    Tidy (i.insert k b) := by
  intro k' b' hb'
  rw [ExtTreeMap.getElem?_insert] at hb'
  split_ifs at hb'
  · cases hb'
    exact hb
  · exact h k' b' hb'

theorem Tidy.attach (h : Tidy i) (k : κ) (v : ν) : Tidy (i.attach k v) :=
  h.insert k (by simp)

theorem Tidy.detach (h : Tidy i) (k : κ) (v : ν) : Tidy (i.detach k v) := by
  unfold Index.detach
  cases i[k]? with
  | none => exact h
  | some b =>
    simp only
    split_ifs with he
    · exact h.erase k
    · exact h.insert k (by simpa using he)

theorem bucket_of_getElem? {b : ExtTreeSet ν} (h : i[k]? = some b) : i.bucket k = b := by
  simp [bucket, h]

theorem bucket_of_none (h : i[k]? = none) : i.bucket k = ∅ := by
  simp [bucket, h]

/-- A tidy index has a bucket exactly where it has members. -/
theorem Tidy.getElem?_eq_none_iff (h : Tidy i) : i[k]? = none ↔ i.bucket k = ∅ := by
  constructor
  · exact bucket_of_none
  · intro hk
    cases hb : i[k]? with
    | none => rfl
    | some b =>
      have he := h k b hb
      rw [← bucket_of_getElem? hb, hk] at he
      simp at he

variable [LawfulEqOrd κ]

theorem bucket_insert_self (b : ExtTreeSet ν) : Index.bucket (i.insert k b) k = b := by
  simp [bucket]

theorem bucket_insert_of_ne (h : k ≠ k') (b : ExtTreeSet ν) :
    Index.bucket (i.insert k b) k' = i.bucket k' := by
  simp [bucket, ExtTreeMap.getElem?_insert, h]

theorem bucket_erase_self : Index.bucket (i.erase k) k = ∅ := by
  simp [bucket]

theorem bucket_erase_of_ne (h : k ≠ k') : Index.bucket (i.erase k) k' = i.bucket k' := by
  simp [bucket, ExtTreeMap.getElem?_erase, h]

theorem mem_bucket_erase : v' ∈ Index.bucket (i.erase k) k' ↔ k' ≠ k ∧ v' ∈ i.bucket k' := by
  by_cases h : k = k'
  · subst h
    simp [bucket_erase_self]
  · simp [bucket_erase_of_ne h, Ne.symm h]

variable [LawfulEqOrd ν]

theorem mem_bucket_attach :
    v' ∈ (i.attach k v).bucket k' ↔ k' = k ∧ v' = v ∨ v' ∈ i.bucket k' := by
  unfold attach
  by_cases h : k = k'
  · subst h
    rw [bucket_insert_self]
    simp [ExtTreeSet.mem_insert, @eq_comm _ v v']
  · rw [bucket_insert_of_ne h]
    simp [Ne.symm h]

theorem mem_bucket_detach :
    v' ∈ (i.detach k v).bucket k' ↔ v' ∈ i.bucket k' ∧ ¬ (k' = k ∧ v' = v) := by
  unfold detach
  cases hb : i[k]? with
  | none =>
    constructor
    · intro h
      refine ⟨h, ?_⟩
      rintro ⟨rfl, rfl⟩
      simp [bucket_of_none hb] at h
    · exact And.left
  | some b =>
    have hk : i.bucket k = b := bucket_of_getElem? hb
    simp only
    split_ifs with he
    · -- the last member goes, and the bucket with it
      rw [mem_bucket_erase]
      by_cases h : k' = k
      · subst h
        have hmem : v' ∈ b → v' = v := by
          intro hv
          by_contra hne
          have hmem : v' ∈ b.erase v := by simp [ExtTreeSet.mem_erase, hv, Ne.symm hne]
          rw [ExtTreeSet.isEmpty_iff.mp he] at hmem
          simp at hmem
        simpa [hk] using hmem
      · simp [h]
    · by_cases h : k = k'
      · subst h
        rw [bucket_insert_self, hk]
        simp [ExtTreeSet.mem_erase, @eq_comm _ v v', and_comm]
      · rw [bucket_insert_of_ne h]
        simp [Ne.symm h]

theorem Tidy.ext_of_mem (hi : Tidy i) (hj : Tidy j)
    (h : ∀ k v, v ∈ i.bucket k ↔ v ∈ j.bucket k) : i = j := by
  apply ExtTreeMap.ext_getElem?
  intro k
  have hk : i.bucket k = j.bucket k := ExtTreeSet.ext_mem (h k)
  cases hb : i[k]? with
  | none =>
    rw [hi.getElem?_eq_none_iff, hk] at hb
    exact (hj.getElem?_eq_none_iff.mpr hb).symm
  | some b =>
    cases hb' : j[k]? with
    | none =>
      rw [hj.getElem?_eq_none_iff, ← hk, ← hi.getElem?_eq_none_iff] at hb'
      rw [hb'] at hb
      cases hb
    | some b' => rw [← bucket_of_getElem? hb, ← bucket_of_getElem? hb', hk]

end AccessCache.Index
