import AccessCache.Key
import Mathlib.Tactic.SplitIfs

/-!
# Unambiguous keys

The bytes of a text inside a key come from one text only, unless it is digested and its digest is
shared (`part_eq_part_iff`). A pair of parts determines both (`pair_eq_pair_iff`), and a key begins
as the pairs of a text do exactly when its first part is that text's (`pairStart_isPrefix_iff`).
Whatever the texts, keys stay within the bounds of a store (`storable_part`, `storable_pair`).
-/

namespace AccessCache

/-! ## First bytes -/

theorem ofNat_ne_digestTag {n : Nat} (h : n % 256 ≠ 255) : UInt8.ofNat n ≠ Key.digestTag := by
  intro he
  exact h (by simpa [Key.digestTag] using congrArg UInt8.toNat he)

theorem head?_utf8EncodeChar_ne (c : Char) :
    (String.utf8EncodeChar c).head? ≠ some Key.digestTag := by
  unfold String.utf8EncodeChar
  simp only
  split_ifs with h₁ h₂ h₃ <;> intro h <;>
    exact ofNat_ne_digestTag (by omega) (Option.some.inj h)

/-- No text starts with the byte that digested parts start with. -/
theorem head?_utf8_ne (s : String) : (utf8 s).head? ≠ some Key.digestTag := by
  rw [utf8_eq_ofChars]
  cases s.toList with
  | nil => simp
  | cons c cs =>
    have hc := head?_utf8EncodeChar_ne c
    obtain ⟨b, bs, hb⟩ := List.exists_cons_of_ne_nil (String.utf8EncodeChar_ne_nil (c := c))
    rw [hb] at hc
    rw [Bytes.ofChars_cons, hb]
    exact hc

namespace Key

/-! ## Parts -/

theorem part_eq_part_iff {s t : String} :
    part s = part t ↔
      s = t ∨ ¬ Inline s ∧ ¬ Inline t ∧ Sha256.digest (utf8 s) = Sha256.digest (utf8 t) := by
  constructor
  · intro h
    by_cases hs : Inline s <;> by_cases ht : Inline t
    · rw [part_of_inline hs, part_of_inline ht] at h
      exact .inl (utf8_inj h)
    · rw [part_of_inline hs, part_of_not_inline ht] at h
      exact absurd (by rw [h]; rfl) (head?_utf8_ne s)
    · rw [part_of_not_inline hs, part_of_inline ht] at h
      exact absurd (by rw [← h]; rfl) (head?_utf8_ne t)
    · rw [part_of_not_inline hs, part_of_not_inline ht] at h
      exact .inr ⟨hs, ht, List.tail_eq_of_cons_eq h⟩
  · rintro (rfl | ⟨hs, ht, hd⟩)
    · rfl
    · rw [part_of_not_inline hs, part_of_not_inline ht, hd]

/-! ## Digested texts -/

/-- The texts that enter a key as their digest: the empty one, and those of more than 200 bytes. -/
def Digested (s : String) : Prop := s = "" ∨ 200 < s.utf8ByteSize

theorem length_utf8 (s : String) : (utf8 s).length = s.utf8ByteSize := rfl

theorem not_inline_iff {s : String} : ¬ Inline s ↔ Digested s := by
  have hempty : utf8 s = [] ↔ s = "" := by
    rw [← List.length_eq_zero_iff, length_utf8, String.utf8ByteSize_eq_zero_iff]
  rw [Inline, Digested, Decidable.not_and_iff_not_or_not, Decidable.not_not, hempty, length_utf8,
    Nat.not_le, maxInline]

/-! ## Pairs -/

theorem length_part_inj {s t : String}
    (h : Bytes.ofWord (part s).length.toUInt32 = Bytes.ofWord (part t).length.toUInt32) :
    (part s).length = (part t).length := by
  have hs := length_part_le s
  have ht := length_part_le t
  simp only [maxInline] at hs ht
  have hlast := congrArg (fun bs : Bytes => bs.getLast?) h
  simp only [Bytes.ofWord, List.getLast?_cons_cons, List.getLast?_singleton, Option.some.injEq,
    ← UInt8.toNat_inj, UInt32.toNat_toUInt8, Nat.toUInt32_eq, UInt32.toNat_ofNat'] at hlast
  omega

/-- What follows the beginnings of two pairs is told apart from them by the length in front. -/
theorem pairStart_append_eq_iff {s t : String} {x y : Bytes} :
    pairStart s ++ x = pairStart t ++ y ↔ part s = part t ∧ x = y := by
  constructor
  · intro h
    simp only [pairStart, List.append_assoc] at h
    obtain ⟨hword, hrest⟩ := List.append_inj h rfl
    exact List.append_inj hrest (length_part_inj hword)
  · rintro ⟨hp, rfl⟩
    simp only [pairStart, hp]

theorem pair_eq_pair_iff {s t s' t' : String} :
    pair s t = pair s' t' ↔ part s = part s' ∧ part t = part t' := pairStart_append_eq_iff

theorem pairStart_isPrefix_iff {s s' t : String} :
    pairStart s <+: pair s' t ↔ part s = part s' := by
  constructor
  · rintro ⟨rest, h⟩
    exact (pairStart_append_eq_iff.mp h).1
  · intro h
    exact ⟨part t, pairStart_append_eq_iff.mpr ⟨h, rfl⟩⟩

/-! ## Sizes -/

/-- A store takes keys of 1 to 511 bytes. -/
def Storable (key : Bytes) : Prop := 1 ≤ key.length ∧ key.length ≤ 511

theorem length_part_pos (s : String) : 1 ≤ (part s).length := by
  by_cases h : Inline s
  · rw [part_of_inline h]
    exact List.length_pos_iff.mpr h.1
  · simp [part_of_not_inline h]

theorem length_pairStart (s : String) : (pairStart s).length = 4 + (part s).length := by
  rw [pairStart, List.length_append, Bytes.length_ofWord]

theorem length_pair (s t : String) :
    (pair s t).length = 4 + (part s).length + (part t).length := by
  rw [pair, List.length_append, length_pairStart]

theorem storable_part (s : String) : Storable (part s) := by
  have hs := length_part_le s
  exact ⟨length_part_pos s, Nat.le_trans hs (by decide)⟩

theorem storable_pairStart (s : String) : Storable (pairStart s) := by
  have hs := length_part_le s
  rw [maxInline] at hs
  rw [Storable, length_pairStart]
  omega

theorem storable_pair (s t : String) : Storable (pair s t) := by
  have hs := length_part_le s
  have ht := length_part_le t
  rw [maxInline] at hs ht
  rw [Storable, length_pair]
  omega

end Key

end AccessCache
