import AccessCache.Proofs.Json.Object
import Mathlib.Data.List.Basic
import Mathlib.Data.List.TakeWhile

/-!
# Reading numbers that were written

The digits of a natural number are read up to the first byte that is none, and make the number again
as long as it fits 64 bits (`number_natural`). No zero stands in front of other digits.
-/

namespace AccessCache.Json

/-! ## Digits -/

/-- Further digits never make a number smaller. -/
theorem le_ofDigitChars (n : Nat) (cs : List Char) : n ≤ Nat.ofDigitChars 10 cs n := by
  induction cs generalizing n with
  | nil => exact Nat.le_of_eq (Nat.ofDigitChars_nil).symm
  | cons c cs ih =>
    rw [Nat.ofDigitChars_cons]
    exact Nat.le_trans (by omega) (ih _)

theorem isDigit_of_mem_natural {n : Nat} {c : Char} (h : c ∈ Printer.natural n) :
    c.isDigit = true :=
  Nat.isDigit_of_mem_toDigits (by decide) (by decide) h

/-- The bytes of a number are its digits. -/
theorem ofChars_natural (n : Nat) :
    Bytes.ofChars (Printer.natural n) = (Printer.natural n).map Char.toUInt8 := by
  refine Bytes.ofChars_of_ascii fun c hc => ?_
  have h := isDigit_of_mem_natural hc
  simp only [Char.isDigit, Bool.and_eq_true, decide_eq_true_eq] at h
  exact Nat.lt_of_le_of_lt (UInt32.le_iff_toNat_le.mp h.2) (by decide)

namespace Numeral

open Reader (isDigit)

/-- A digit as a byte. -/
theorem digit_toUInt8 {c : Char} (hc : c.isDigit = true) :
    isDigit c = true ∧ digitValue c = c.toNat - '0'.toNat := by
  simp only [Char.isDigit, Bool.and_eq_true, decide_eq_true_eq] at hc
  have hlow : 48 ≤ c.toNat := UInt32.le_iff_toNat_le.mp hc.1
  have hhigh : c.toNat ≤ 57 := UInt32.le_iff_toNat_le.mp hc.2
  have hbyte : c.toUInt8.toNat = c.toNat := by
    show c.toNat % 256 = c.toNat
    omega
  constructor
  · simp only [isDigit, Bool.and_eq_true, decide_eq_true_eq, UInt8.le_iff_toNat_le, hbyte]
    exact ⟨hlow, hhigh⟩
  · rw [digitValue, hbyte]

theorem isDigit_of_mem {n : Nat} {b : UInt8} (hb : b ∈ (Printer.natural n).map Char.toUInt8) :
    isDigit b = true := by
  obtain ⟨c, hc, rfl⟩ := List.mem_map.mp hb
  exact (digit_toUInt8 (isDigit_of_mem_natural hc)).1

/-- The values of the digits of a number, from their bytes. -/
theorem map_digitValue {cs : List Char} (hcs : ∀ c ∈ cs, c.isDigit = true) :
    (cs.map Char.toUInt8).map digitValue = cs.map fun c => c.toNat - '0'.toNat := by
  rw [List.map_map]
  exact List.map_congr_left fun c hc => (digit_toUInt8 (hcs c hc)).2

/-- Digits in front of what is none are taken as a whole. -/
theorem digits_append {ds rest : Bytes} (hds : ∀ b ∈ ds, isDigit b = true)
    (hrest : ∀ b ∈ rest.head?, isDigit b = false) :
    digits (ds ++ rest) = (ds.map digitValue, rest) := by
  have htake : rest.takeWhile isDigit = [] ∧ rest.dropWhile isDigit = rest := by
    cases rest with
    | nil => exact ⟨rfl, rfl⟩
    | cons b rest =>
      have hb := hrest b rfl
      simp [hb]
  rw [digits, List.takeWhile_append_of_pos hds, List.dropWhile_append_of_pos hds, htake.1, htake.2,
    List.append_nil]

/-- Digits that make a number of 64 bits are gathered to it. -/
theorem gather_digits {ds : List Char} {n : Nat}
    (h : Nat.ofDigitChars 10 ds n < UInt64.size) :
    gather n (ds.map fun c => c.toNat - '0'.toNat) = (Nat.ofDigitChars 10 ds n, []) := by
  induction ds generalizing n with
  | nil => rfl
  | cons c ds ih =>
    rw [Nat.ofDigitChars_cons, Nat.mul_comm] at h ⊢
    have hle := le_ofDigitChars (n * 10 + (c.toNat - '0'.toNat)) ds
    rw [List.map_cons, gather, if_pos (Nat.lt_of_le_of_lt hle h)]
    exact ih h

theorem digitChar_sub {d : Nat} (h : d < 10) : d.digitChar.toNat - '0'.toNat = d := by
  revert d
  decide

/-- A number other than zero does not begin with a zero. -/
theorem head_natural_ne_zero {n : Nat} (h : 0 < n) :
    ∀ c ∈ (Printer.natural n).head?, c.toNat - '0'.toNat ≠ 0 := by
  induction n using Nat.strongRecOn with
  | ind n ih =>
    unfold Printer.natural
    rcases Nat.lt_or_ge n 10 with hlt | hge
    · rw [Nat.toDigits_of_lt_base hlt]
      rintro c ⟨⟩
      rw [digitChar_sub hlt]
      omega
    · rw [Nat.toDigits_of_base_le (by decide) hge,
        List.head?_append_of_ne_nil _ Nat.toDigits_ne_nil]
      exact ih (n / 10) (by omega) (by omega)

/-- The values of the digits of a number. -/
def valuesOf (n : Nat) : List Nat := (Printer.natural n).map fun c => c.toNat - '0'.toNat

theorem digits_natural (n : Nat) {rest : Bytes} (hrest : ∀ b ∈ rest.head?, isDigit b = false) :
    digits (Bytes.ofChars (Printer.natural n) ++ rest) = (valuesOf n, rest) := by
  rw [ofChars_natural, digits_append (fun _ => isDigit_of_mem) hrest,
    map_digitValue fun _ => isDigit_of_mem_natural, valuesOf]

end Numeral

namespace Reader

open Numeral

/-- The first digit of a number. -/
theorem exists_natural (n : Nat) (rest : Bytes) : ∃ b bs,
    Bytes.ofChars (Printer.natural n) ++ rest = b :: bs ∧ isDigit b = true := by
  obtain ⟨c, cs, h⟩ := List.exists_cons_of_ne_nil (Nat.toDigits_ne_nil : Nat.toDigits 10 n ≠ [])
  refine ⟨c.toUInt8, cs.map Char.toUInt8 ++ rest, ?_, ?_⟩
  · rw [ofChars_natural, Printer.natural, h]
    rfl
  · exact (digit_toUInt8 (isDigit_of_mem_natural (h ▸ List.mem_cons_self))).1

theorem someDigits_of_digits {bs rest : Bytes} {d : Nat} {ds : List Nat}
    (h : digits bs = (d :: ds, rest)) (atEnd : Obstacle) :
    someDigits atEnd bs = .ok (d :: ds, rest) := by
  rw [someDigits, h]

/-- The digits of a number pass for the digits before a point. -/
theorem wholePart_natural (n : Nat) {rest : Bytes} (hrest : ∀ b ∈ rest.head?, isDigit b = false)
    (atEnd : Obstacle) :
    wholePart atEnd (Bytes.ofChars (Printer.natural n) ++ rest) = .ok (valuesOf n, rest) := by
  have hdigits := digits_natural n hrest
  rcases Nat.eq_zero_or_pos n with rfl | hpos
  · show (someDigits atEnd _ >>= _) = _
    rw [someDigits_of_digits hdigits]
    rfl
  · have hhead := head_natural_ne_zero hpos
    unfold valuesOf at hdigits ⊢
    cases hn : Printer.natural n with
    | nil => exact absurd hn Nat.toDigits_ne_nil
    | cons c cs =>
      rw [hn] at hdigits hhead
      rw [List.map_cons] at hdigits ⊢
      show (someDigits atEnd _ >>= _) = _
      cases hd : c.toNat - '0'.toNat with
      | zero => exact absurd hd (hhead c rfl)
      | succ d =>
        rw [hd] at hdigits
        rw [someDigits_of_digits hdigits]
        rfl

theorem takeIf_of_ne {b : UInt8} {bs : Bytes} (h : ∀ c ∈ bs.head?, c ≠ b) :
    takeIf b bs = .ok (false, bs) := by
  have hne : ¬ bs.head? = some b := fun heq => h b heq rfl
  rw [takeIf, if_neg hne]

/-- Nothing but the digits belongs to the numeral. -/
theorem read_natural (n : Nat) {rest : Bytes} (hrest : Delimited rest) (atEnd : Obstacle) :
    Numeral.read atEnd (Bytes.ofChars (Printer.natural n) ++ rest) =
      .ok (⟨false, valuesOf n, [], none, 0⟩, rest) := by
  have hsign : sign (Bytes.ofChars (Printer.natural n) ++ rest) =
      .ok (false, Bytes.ofChars (Printer.natural n) ++ rest) := by
    obtain ⟨b, bs, hn, hb⟩ := exists_natural n rest
    rw [hn]
    refine takeIf_of_ne ?_
    rintro _ ⟨⟩ rfl
    exact absurd hb (by decide)
  have hpoint : takeIf '.' rest = .ok (false, rest) := takeIf_of_ne fun b hb => (hrest b hb).2.1
  have he : takeIf 'e' rest = .ok (false, rest) := takeIf_of_ne fun b hb => (hrest b hb).2.2.1
  have hE : takeIf 'E' rest = .ok (false, rest) := takeIf_of_ne fun b hb => (hrest b hb).2.2.2
  have hmark : exponentMark rest = .ok (false, rest) := (bind_ok he).trans hE
  refine (bind_ok hsign).trans ?_
  refine (bind_ok (wholePart_natural n (fun b hb => (hrest b hb).1) atEnd)).trans ?_
  refine (bind_ok (x := fractionPart atEnd) (bind_ok hpoint)).trans ?_
  exact bind_ok (x := exponentPart atEnd) (bind_ok hmark)

/-- A number of 64 bits is read as it was written. -/
theorem number_natural {n : Nat} (hn : n < UInt64.size) {rest : Bytes} (hrest : Delimited rest) :
    number (Bytes.ofChars (Printer.natural n) ++ rest) = .ok (.integer n, rest) := by
  have hdigits : Nat.ofDigitChars 10 (Printer.natural n) 0 = n := Nat.ofDigitChars_ten_toDigits
  have hgather : gather 0 (valuesOf n) = (n, []) := by
    have h := gather_digits (hdigits.symm ▸ hn)
    rwa [hdigits] at h
  have hvalue : value? ⟨false, valuesOf n, [], none, 0⟩ = some (.integer n) := by
    simp [value?, hgather]
  refine (bind_ok (read_natural n hrest _)).trans ?_
  simp only [hvalue]
  rfl

theorem isBlank_of_isDigit {b : UInt8} (hb : isDigit b = true) : isBlank b = false := by
  cases hblank : isBlank b with
  | false => rfl
  | true =>
    simp only [isBlank, Bool.or_eq_true, decide_eq_true_eq] at hblank
    rcases hblank with ((rfl | rfl) | rfl) | rfl <;> exact absurd hb (by decide)

/-- A number below its limit is read as a word. -/
theorem word_natural {n limit : Nat} (hn : n < limit) (hlimit : limit ≤ UInt64.size)
    {rest : Bytes} (hrest : Delimited rest) (wanted : String) :
    word limit wanted (Bytes.ofChars (Printer.natural n) ++ rest) = .ok (n, rest) := by
  obtain ⟨b, bs, hbs, hb⟩ := exists_natural n rest
  have hpeek : peek .value (Bytes.ofChars (Printer.natural n) ++ rest) =
      .ok (b, Bytes.ofChars (Printer.natural n) ++ rest) := by
    rw [hbs, peek, List.dropWhile_cons_of_neg (by simp [isBlank_of_isDigit hb])]
  have hnumber := number_natural (Nat.lt_of_lt_of_le hn hlimit) hrest
  refine (bind_ok hpeek).trans ?_
  rw [if_pos (by simp [hb])]
  refine (bind_ok hnumber).trans ?_
  simp only
  rw [if_pos ⟨Int.natCast_nonneg n, Int.ofNat_lt.mpr hn⟩]
  rfl

end Reader

end AccessCache.Json
