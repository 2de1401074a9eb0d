import AccessCache.Config.Variables
import Mathlib.Data.List.TakeWhile

/-!
# Names of storages

A text is cut down to what stands between its blanks (`Trimmed`), and such a core names a storage in
any mixture of cases (`Names`). The reader lowers letters of ASCII only. The lower case of Unicode
(`Lowered`) does more, but never makes a name out of a text that was none: its two characters beyond
ASCII that become letters of ASCII become a `k`, which is in no name, and an `i` with a dot to it.
-/

namespace AccessCache

/-! ## Blanks -/

/-- `t` is what a text holds between the blanks at its ends. -/
structure Trimmed (s t : List Char) : Prop where
  split : ∃ front back, s = front ++ t ++ back ∧
    (∀ c ∈ front, Text.isBlank c = true) ∧ ∀ c ∈ back, Text.isBlank c = true
  head : ∀ c ∈ t.head?, Text.isBlank c = false
  last : ∀ c ∈ t.getLast?, Text.isBlank c = false

section

variable {p : Char → Bool}

theorem dropWhile_append_stop {front t : List Char} (hfront : ∀ c ∈ front, p c = true)
    (ht : ∀ c ∈ t.head?, p c = false) : (front ++ t).dropWhile p = t := by
  rw [List.dropWhile_append_of_pos hfront]
  cases t with
  | nil => rfl
  | cons c t => rw [List.dropWhile_cons_of_neg (by simp [ht c rfl])]

theorem of_mem_head?_dropWhile {s : List Char} : ∀ c ∈ (s.dropWhile p).head?, p c = false := by
  intro c hc
  have h := List.head?_dropWhile_not p s
  rw [Option.mem_def.mp hc] at h
  exact h

end

theorem trimmed_trim (s : String) : Trimmed s.toList (Text.trim s) := by
  let middle := s.toList.dropWhile Text.isBlank
  let back := (middle.reverse.takeWhile Text.isBlank).reverse
  have hmiddle : Text.trim s ++ back = middle := by
    show (middle.reverse.dropWhile _).reverse ++ (middle.reverse.takeWhile _).reverse = middle
    rw [← List.reverse_append, List.takeWhile_append_dropWhile, List.reverse_reverse]
  refine ⟨⟨s.toList.takeWhile Text.isBlank, back, ?_, ?_, ?_⟩, ?_, ?_⟩
  · rw [List.append_assoc, hmiddle, List.takeWhile_append_dropWhile]
  · exact fun c hc => List.mem_takeWhile_imp hc
  · exact fun c hc => List.mem_takeWhile_imp (List.mem_reverse.mp hc)
  · intro c hc
    -- The first character kept is the first one after the blanks in front.
    refine of_mem_head?_dropWhile (s := s.toList) c ?_
    show c ∈ middle.head?
    rw [← hmiddle, List.head?_append, Option.mem_def.mp hc]
    rfl
  · intro c hc
    rw [Text.trim, List.getLast?_reverse] at hc
    exact of_mem_head?_dropWhile c hc

theorem Trimmed.trim_eq {s : String} {t : List Char} (h : Trimmed s.toList t) :
    Text.trim s = t := by
  obtain ⟨front, back, hs, hfront, hback⟩ := h.split
  have hdrop : s.toList.dropWhile Text.isBlank = t ++ back ∨ t = [] := by
    cases t with
    | nil => exact .inr rfl
    | cons c t =>
      refine .inl ?_
      rw [hs, List.append_assoc]
      exact dropWhile_append_stop hfront h.head
  rcases hdrop with hdrop | rfl
  · have hback' : ∀ c ∈ back.reverse, Text.isBlank c = true :=
      fun c hc => hback c (List.mem_reverse.mp hc)
    have hlast : ∀ c ∈ t.reverse.head?, Text.isBlank c = false := by
      rw [List.head?_reverse]
      exact h.last
    rw [Text.trim, hdrop, List.reverse_append, dropWhile_append_stop hback' hlast,
      List.reverse_reverse]
  · have hall : ∀ c ∈ s.toList, Text.isBlank c = true := by
      intro c hc
      rw [hs, List.append_nil, List.mem_append] at hc
      exact hc.elim (hfront c) (hback c)
    rw [Text.trim, List.dropWhile_eq_nil_iff.mpr hall]
    rfl

/-! ## Storages -/

/-- The names of a storage. -/
def StorageKind.names : StorageKind → List String
  | .memory => ["memory", "in_memory", "inmemory"]
  | .disk => ["lmdb"]

/-- A text names a storage: with the blanks around it cut off, it is one of the names in any
mixture of upper and lower case letters of ASCII. -/
def Names (s : String) (k : StorageKind) : Prop :=
  ∃ name ∈ k.names, ∃ t, Trimmed s.toList t ∧ t.map Char.toLower = name.toList

theorem names_iff {s : String} {k : StorageKind} :
    Names s k ↔ String.ofList ((Text.trim s).map Char.toLower) ∈ k.names := by
  constructor
  · rintro ⟨name, hname, t, ht, hlower⟩
    rwa [ht.trim_eq, hlower, String.ofList_toList]
  · intro h
    exact ⟨_, h, _, trimmed_trim s, String.toList_ofList.symm⟩

theorem ofName?_eq_some_iff {s : String} {k : StorageKind} :
    StorageKind.ofName? s = some k ↔ Names s k := by
  rw [names_iff, StorageKind.ofName?]
  generalize String.ofList ((Text.trim s).map Char.toLower) = lower
  split
  · cases k <;> simp [StorageKind.names]
  · cases k <;> simp [StorageKind.names]
  · cases k <;> simp [StorageKind.names]
  · cases k <;> simp [StorageKind.names]
  · cases k <;> simp_all [StorageKind.names]

/-! ## Lower case -/

/-- What may be the lower case of a character. Beyond ASCII two characters have letters of ASCII in
theirs: the sign of the kelvin, and the capital i with a dot. -/
inductive Lowers : Char → List Char → Prop
  | ascii {c : Char} (hc : c.toNat < 128) : Lowers c [c.toLower]
  | kelvin : Lowers '\u212a' ['k']
  | dotted : Lowers '\u0130' ['i', '\u0307']
  | beyond {c : Char} {cs : List Char} (hc : 128 ≤ c.toNat) (hne : cs ≠ [])
      (hcs : ∀ x ∈ cs, 128 ≤ x.toNat) : Lowers c cs

/-- What may be the lower case of a text. -/
inductive Lowered : List Char → List Char → Prop
  | nil : Lowered [] []
  | cons {c : Char} {cs s t : List Char} (hc : Lowers c cs) (hs : Lowered s t) :
      Lowered (c :: s) (cs ++ t)

/-- Beyond ASCII, the lower case has a character that is in no name. -/
theorem Lowers.cases_ascii {c : Char} {cs : List Char} (h : Lowers c cs) :
    cs = [c.toLower] ∨ 128 ≤ c.toNat ∧ ∃ x ∈ cs, x.toNat < 128 → x = 'k' := by
  cases h with
  | ascii hc => exact .inl rfl
  | kelvin => exact .inr ⟨by decide, 'k', List.mem_singleton_self _, fun _ => rfl⟩
  | dotted => exact .inr ⟨by decide, '\u0307', by decide, fun h => absurd h (by decide)⟩
  | beyond hc hne hcs =>
    obtain ⟨x, hx⟩ := List.exists_mem_of_ne_nil cs hne
    exact .inr ⟨hc, x, hx, fun h => absurd h (Nat.not_lt.mpr (hcs x hx))⟩

theorem toLower_of_le {c : Char} (hc : 128 ≤ c.toNat) : c.toLower = c := by
  have hz : ¬ c.val ≤ 'Z'.val := fun h => by
    have h' : c.toNat ≤ 90 := h
    omega
  exact dif_neg fun h => hz h.2

/-- Whether a text becomes this word of ASCII is up to its letters of ASCII. -/
theorem Lowered.eq_iff {s t : List Char} (h : Lowered s t) {word : List Char}
    (hword : ∀ c ∈ word, c.toNat < 128 ∧ c ≠ 'k') : t = word ↔ s.map Char.toLower = word := by
  induction h generalizing word with
  | nil => rfl
  | @cons c cs s t hc hs ih =>
    rcases hc.cases_ascii with rfl | ⟨hbeyond, x, hx, hk⟩
    · cases word with
      | nil => simp
      | cons y word =>
        have hrest := ih fun c hc => hword c (List.mem_cons_of_mem y hc)
        rw [List.singleton_append, List.map_cons, List.cons.injEq, List.cons.injEq, hrest]
    · refine iff_of_false ?_ ?_
      · rintro rfl
        have hx := hword x (List.mem_append_left t hx)
        exact hx.2 (hk hx.1)
      · rintro rfl
        have hc := (hword _ (List.mem_map_of_mem List.mem_cons_self)).1
        rw [toLower_of_le hbeyond] at hc
        omega

/-- Reading a name by any lower case of Unicode finds the same storage. -/
theorem ofName?_eq_some_iff_of_lowered {s : String} {t : List Char} (h : Lowered (Text.trim s) t)
    {k : StorageKind} : StorageKind.ofName? s = some k ↔ String.ofList t ∈ k.names := by
  have hplain : ∀ name ∈ k.names, ∀ c ∈ name.toList, c.toNat < 128 ∧ c ≠ 'k' := by
    cases k <;> simp [StorageKind.names]
  have hsame : ∀ name ∈ k.names,
      (String.ofList t = name ↔ String.ofList ((Text.trim s).map Char.toLower) = name) := by
    intro name hname
    simp only [← String.toList_inj, String.toList_ofList]
    exact h.eq_iff (hplain name hname)
  rw [ofName?_eq_some_iff, names_iff]
  constructor
  · exact fun hmem => (hsame _ hmem).mpr rfl ▸ hmem
  · exact fun hmem => (hsame _ hmem).mp rfl ▸ hmem

end AccessCache
