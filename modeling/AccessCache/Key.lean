import AccessCache.Identity
import AccessCache.Sha256

/-!
# Byte keys

Texts of any length become keys of bounded length. A part is the text's own UTF-8 bytes where
they number from 1 to 200, and a tag byte that no text starts with followed by the digest
otherwise. A pair of parts writes the length of the first in front, so pairs that share their
first part share a beginning and no other pair has it.
-/

namespace AccessCache

namespace Key

/-- The longest text that stands for itself, in bytes. -/
def maxInline : Nat := 200

/-- The first byte of a digested part; no UTF-8 text contains it. -/
def digestTag : UInt8 := 0xff

/-- The texts that stand for themselves. -/
def Inline (s : String) : Prop := utf8 s ≠ [] ∧ (utf8 s).length ≤ maxInline

instance : DecidablePred Inline := fun _ => inferInstanceAs (Decidable (_ ∧ _))

/-- The bytes of one text inside a key. -/
def part (s : String) : Bytes :=
  if Inline s then utf8 s else digestTag :: Sha256.digest (utf8 s)

/-- The beginning of every pair whose first text is `s`. -/
def pairStart (s : String) : Bytes := Bytes.ofWord (part s).length.toUInt32 ++ part s

/-- The key of a pair of texts. -/
def pair (s t : String) : Bytes := pairStart s ++ part t

theorem part_of_inline {s : String} (h : Inline s) : part s = utf8 s := if_pos h

theorem part_of_not_inline {s : String} (h : ¬ Inline s) :
    part s = digestTag :: Sha256.digest (utf8 s) := if_neg h

theorem length_part_le (s : String) : (part s).length ≤ maxInline := by
  by_cases h : Inline s
  · exact part_of_inline h ▸ h.2
  · simp [part_of_not_inline h, maxInline]

end Key

/-! ## Role keys -/

/-- The pair that a role belongs to, ordered by group and then by member. -/
structure RoleKey where
  group : GroupId
  member : MemberId
  deriving DecidableEq

namespace RoleKey

/-- Group first: the key of an assignment. -/
def byGroup (k : RoleKey) : Bytes := Key.pair k.group.text k.member.text

/-- Member first: the key of a membership. -/
def byMember (k : RoleKey) : Bytes := Key.pair k.member.text k.group.text

/-- The beginning of every membership key of one member. -/
def memberStart (m : MemberId) : Bytes := Key.pairStart m.text

/-- The pair in messages. -/
def text (k : RoleKey) : String := "(" ++ k.group.text ++ ", " ++ k.member.text ++ ")"

instance : Ord RoleKey :=
  ⟨compareLex (compareOn group) (compareOn member)⟩

theorem compare_def (k l : RoleKey) :
    compare k l = (compare k.group l.group).then (compare k.member l.member) := rfl

instance : Std.TransOrd RoleKey :=
  inferInstanceAs (Std.TransCmp (compareLex (compareOn group) (compareOn member)))

instance : Std.LawfulEqOrd RoleKey where
  compare_self := by simp
  eq_of_compare {k l} h := by
    simp only [compare_def, Ordering.then_eq_eq, Std.LawfulEqCmp.compare_eq_iff_eq] at h
    cases k; cases l; simp_all

/-- The keys in order, repeated ones kept. -/
def sort (ks : List RoleKey) : List RoleKey := ks.mergeSort fun k l => (compare k l).isLE

/-- The keys in the order of their bytes; those with the same bytes keep their order. -/
def sortOn (bytes : RoleKey → Bytes) (ks : List RoleKey) : List RoleKey :=
  ks.mergeSort fun k l => (compare (bytes k) (bytes l)).isLE

end RoleKey

end AccessCache
