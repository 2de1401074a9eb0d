import AccessCache.Config.Variables
import AccessCache.Proofs.Config.Names
import AccessCache.Proofs.Json.Number
import AccessCache.Proofs.Steps
import Mathlib.Tactic.SplitIfs

/-!
# What the variables may say

The settings that four variables make, described without reading them. Between its blanks a text
names a storage (`Names`) or writes a number (`Writes`). `Config.Matches` collects the settings
that the variables ask for, `Config.Usable` those that a store can work with, and `Config.Refused`
the one complaint made where there are none: every complaint presumes that what is looked at before
it is in order.
-/

namespace AccessCache

/-! ## Numbers -/

/-- A text writes a number: between the blanks stand one or more digits of ASCII, of which a plus
may stand in front. -/
def Writes (s : String) (n : Nat) : Prop :=
  ∃ t ds, Trimmed s.toList t ∧ (t = ds ∨ t = '+' :: ds) ∧ ds ≠ [] ∧
    (∀ c ∈ ds, c.isDigit = true) ∧ Nat.ofDigitChars 10 ds 0 = n

theorem digitsBelow?_eq_some_iff {limit n m : Nat} {cs : List Char} (hn : n < limit) :
    digitsBelow? limit n cs = some m ↔
      (∀ c ∈ cs, c.isDigit = true) ∧ Nat.ofDigitChars 10 cs n = m ∧ m < limit := by
  induction cs generalizing n with
  | nil =>
    simp only [digitsBelow?, Option.some.injEq, Nat.ofDigitChars_nil, List.not_mem_nil]
    constructor
    · rintro rfl; exact ⟨fun c h => h.elim, rfl, hn⟩
    · exact fun h => h.2.1
  | cons c cs ih =>
    have hstep : 10 * n + (c.toNat - '0'.toNat) = n * 10 + (c.toNat - '0'.toNat) := by omega
    simp only [digitsBelow?, Nat.ofDigitChars_cons, hstep, List.forall_mem_cons]
    split_ifs with h
    · rw [ih h.2]
      simp [h.1]
    · -- The digits that follow cannot bring the number below the limit again.
      have hle := Json.le_ofDigitChars (n * 10 + (c.toNat - '0'.toNat)) cs
      constructor
      · exact fun h => nomatch h
      · rintro ⟨⟨hc, -⟩, rfl, hlt⟩
        exact absurd ⟨hc, Nat.lt_of_le_of_lt hle hlt⟩ h

theorem decimalBelow?_eq_some_iff {limit m : Nat} {cs : List Char} (hlimit : 0 < limit) :
    decimalBelow? limit cs = some m ↔ cs ≠ [] ∧ (∀ c ∈ cs, c.isDigit = true) ∧
      Nat.ofDigitChars 10 cs 0 = m ∧ m < limit := by
  unfold decimalBelow?
  split_ifs with h
  · simp [h]
  · rw [digitsBelow?_eq_some_iff hlimit]
    simp [h]

/-- What is left of a number without its sign. -/
def unsigned : List Char → List Char
  | '+' :: cs => cs
  | cs => cs

theorem word?_eq (s : String) :
    word? s = UInt64.ofNat <$> decimalBelow? UInt64.size (unsigned (Text.trim s)) := rfl

theorem eq_unsigned_or (t : List Char) : t = unsigned t ∨ t = '+' :: unsigned t := by
  unfold unsigned
  split
  · exact .inr rfl
  · exact .inl rfl

/-- Digits do not begin with a plus, so a plus in front is always the sign. -/
theorem unsigned_eq {t ds : List Char} (hds : ∀ c ∈ ds, c.isDigit = true)
    (h : t = ds ∨ t = '+' :: ds) : unsigned t = ds := by
  rcases h with rfl | rfl
  · unfold unsigned
    split
    · exact absurd (hds '+' (by simp)) (by decide)
    · rfl
  · rfl

theorem word?_eq_some_iff {s : String} {w : UInt64} : word? s = some w ↔ Writes s w.toNat := by
  rw [word?_eq, Option.map_eq_map, Option.map_eq_some_iff]
  constructor
  · rintro ⟨n, hn, rfl⟩
    obtain ⟨hne, hds, hval, hlt⟩ := (decimalBelow?_eq_some_iff (by decide)).mp hn
    refine ⟨_, _, trimmed_trim s, eq_unsigned_or _, hne, hds, ?_⟩
    rw [hval, UInt64.toNat_ofNat_of_lt' hlt]
  · rintro ⟨t, ds, ht, hsign, hne, hds, hval⟩
    refine ⟨w.toNat, ?_, UInt64.ofNat_toNat⟩
    rw [ht.trim_eq, unsigned_eq hds hsign]
    exact (decimalBelow?_eq_some_iff (by decide)).mpr ⟨hne, hds, hval, w.toNat_lt⟩

theorem isBlank_of_isDigit {c : Char} (h : c.isDigit = true) : Text.isBlank c = false := by
  have hlow : 48 ≤ c.toNat := by simpa using (Char.isDigit_iff_toNat.mp h).1
  have hhigh : c.toNat ≤ 57 := by simpa using (Char.isDigit_iff_toNat.mp h).2
  rw [← Bool.not_eq_true]
  intro hblank
  simp only [Text.isBlank, Text.Ranges.has, Text.blankRanges, List.any_cons, List.any_nil,
    Bool.or_eq_true, Bool.and_eq_true, decide_eq_true_eq, Bool.false_eq_true, or_false] at hblank
  omega

theorem writes_toString (n : Nat) : Writes (toString n) n := by
  have hblank : ∀ c ∈ Nat.toDigits 10 n, Text.isBlank c = false := fun c hc =>
    isBlank_of_isDigit (Nat.isDigit_of_mem_toDigits (by decide) (by decide) hc)
  refine ⟨Nat.toDigits 10 n, _, ?_, .inl rfl, Nat.toDigits_ne_nil,
    fun c hc => Nat.isDigit_of_mem_toDigits (by decide) (by decide) hc,
    Nat.ofDigitChars_ten_toDigits⟩
  exact
    { split := ⟨[], [], by simp, by simp, by simp⟩
      head := fun c hc => hblank c (List.mem_of_mem_head? hc)
      last := fun c hc => hblank c (List.mem_of_mem_getLast? hc) }

/-- A text writes a deadline as a number of milliseconds. -/
def WritesMilliseconds (s : String) (d : Duration) : Prop :=
  ∃ n < UInt64.size, Writes s n ∧ d.nanoseconds = n * 1000000

theorem nanoseconds_ofMilliseconds (w : UInt64) :
    (Duration.ofMilliseconds w).nanoseconds = w.toNat * 1000000 := by
  simp only [Duration.nanoseconds, Duration.ofMilliseconds]
  omega

theorem milliseconds?_eq_some_iff {s : String} {d : Duration} :
    (word? s).map Duration.ofMilliseconds = some d ↔ WritesMilliseconds s d := by
  rw [Option.map_eq_some_iff]
  constructor
  · rintro ⟨w, hw, rfl⟩
    exact ⟨w.toNat, w.toNat_lt, word?_eq_some_iff.mp hw, nanoseconds_ofMilliseconds w⟩
  · rintro ⟨n, hn, hs, hd⟩
    have hw : (UInt64.ofNat n).toNat = n := UInt64.toNat_ofNat_of_lt' hn
    refine ⟨.ofNat n, word?_eq_some_iff.mpr (hw.symm ▸ hs), Duration.nanoseconds_inj ?_⟩
    rw [nanoseconds_ofMilliseconds, hw, hd]

/-! ## Settings -/

/-- What an optional text asks for: the default where there is none, and what the text is read as
where there is one. -/
def Given {α : Type} (text : Option String) (default : α) (Reads : String → α → Prop) (a : α) :
    Prop :=
  match text with
  | none => a = default
  | some s => Reads s a

/-- The variables that are looked up. -/
def Variable.names : List String := [storage, path, maxSize, timeout]

namespace Config

/-- The settings that the variables ask for. -/
structure Matches (lookup : String → Option String) (c : Config) : Prop where
  storage : Given (lookup Variable.storage) default.storage Names c.storage
  path : c.path = (lookup Variable.path).getD default.path
  maxSizeMb : Given (lookup Variable.maxSize) default.maxSizeMb (fun s w => Writes s w.toNat)
    c.maxSizeMb
  timeout : Given (lookup Variable.timeout) default.timeout WritesMilliseconds c.timeout

/-- Settings that a store can work with. What is asked of the path and the size concerns stores on
disk alone. -/
structure Usable (c : Config) : Prop where
  timeout : c.timeout.nanoseconds ≠ 0
  path : c.storage = .disk → c.path ≠ ""
  maxSizeMb : c.storage = .disk → c.maxSizeMb ≠ 0

/-- The first setting that no store can work with. -/
inductive Faulty (c : Config) : ConfigError → Prop
  | timeout (h : c.timeout.nanoseconds = 0) :
      Faulty c (.invalidValue "operation_timeout" "0" "deadline must be positive")
  | path (ht : c.timeout.nanoseconds ≠ 0) (hs : c.storage = .disk) (h : c.path = "") :
      Faulty c (.missingRequired "lmdb_path")
  | maxSizeMb (ht : c.timeout.nanoseconds ≠ 0) (hs : c.storage = .disk) (hp : c.path ≠ "")
      (h : c.maxSizeMb = 0) :
      Faulty c (.invalidValue "lmdb_max_size_mb" "0" "map size must be positive")

/-- The complaint about the variables. What is read later is not looked at until all that is read
earlier can be, and the texts are reported with their blanks. -/
inductive Refused (lookup : String → Option String) : ConfigError → Prop
  | storage {s : String} (h : lookup Variable.storage = some s) (hno : ∀ k, ¬ Names s k) :
      Refused lookup (.invalidValue Variable.storage s "expected memory or lmdb")
  | maxSize {k : StorageKind} {s : String}
      (hstorage : Given (lookup Variable.storage) default.storage Names k)
      (h : lookup Variable.maxSize = some s) (hno : ∀ n < UInt64.size, ¬ Writes s n) :
      Refused lookup (.invalidValue Variable.maxSize s "expected a non-negative integer")
  | timeout {k : StorageKind} {w : UInt64} {s : String}
      (hstorage : Given (lookup Variable.storage) default.storage Names k)
      (hsize : Given (lookup Variable.maxSize) default.maxSizeMb (fun s w => Writes s w.toNat) w)
      (h : lookup Variable.timeout = some s) (hno : ∀ n < UInt64.size, ¬ Writes s n) :
      Refused lookup (.invalidValue Variable.timeout s "expected a non-negative integer")
  | faulty {c : Config} {e : ConfigError} (h : Matches lookup c) (he : c.Faulty e) :
      Refused lookup e

/-- The variables that write a configuration, `name` standing for its storage. -/
def toVariables (c : Config) (name : String) : String → Option String := fun x =>
  if x = Variable.storage then some name
  else if x = Variable.path then some c.path
  else if x = Variable.maxSize then some (toString c.maxSizeMb.toNat)
  else if x = Variable.timeout then some (toString c.timeout.milliseconds)
  else none

/-! ## Validation -/

theorem isZero_eq_true_iff {d : Duration} : d.isZero = true ↔ d.nanoseconds = 0 := by
  simp only [Duration.isZero, Duration.nanoseconds, Bool.and_eq_true, decide_eq_true_eq]
  omega

theorem validate_of_usable {c : Config} (h : c.Usable) : c.validate = .ok () := by
  cases hs : c.storage with
  | memory => simp [validate, isZero_eq_true_iff, h.timeout, hs]
  | disk => simp [validate, isZero_eq_true_iff, h.timeout, hs, h.path hs, h.maxSizeMb hs]

theorem validate_of_faulty {c : Config} {e : ConfigError} (h : c.Faulty e) :
    c.validate = .error e := by
  rcases h with h | ⟨ht, hs, h⟩ | ⟨ht, hs, hp, h⟩
  · simp [validate, isZero_eq_true_iff, h]
  · simp [validate, isZero_eq_true_iff, ht, hs, h]
  · simp [validate, isZero_eq_true_iff, ht, hs, hp, h]

theorem usable_or_faulty (c : Config) : c.Usable ∨ ∃ e, c.Faulty e := by
  by_cases ht : c.timeout.nanoseconds = 0
  · exact .inr ⟨_, .timeout ht⟩
  cases hs : c.storage with
  | memory => exact .inl ⟨ht, by simp [hs], by simp [hs]⟩
  | disk =>
    by_cases hp : c.path = ""
    · exact .inr ⟨_, .path ht hs hp⟩
    by_cases hm : c.maxSizeMb = 0
    · exact .inr ⟨_, .maxSizeMb ht hs hp hm⟩
    · exact .inl ⟨ht, fun _ => hp, fun _ => hm⟩

theorem validate_eq_ok_iff {c : Config} : c.validate = .ok () ↔ c.Usable := by
  refine ⟨fun h => ?_, validate_of_usable⟩
  rcases c.usable_or_faulty with hc | ⟨e, he⟩
  · exact hc
  · exact nomatch h.symm.trans (validate_of_faulty he)

theorem validate_eq_error_iff {c : Config} {e : ConfigError} :
    c.validate = .error e ↔ c.Faulty e := by
  refine ⟨fun h => ?_, validate_of_faulty⟩
  rcases c.usable_or_faulty with hc | ⟨e', he⟩
  · exact nomatch h.symm.trans (validate_of_usable hc)
  · cases h.symm.trans (validate_of_faulty he)
    exact he

/-! ## Reading the variables -/

section

variable {α : Type} {lookup : String → Option String} {name reason : String} {fallback a : α}
  {read : String → Option α} {Reads : String → α → Prop}

theorem setting_eq_ok_iff (hread : ∀ s a, read s = some a ↔ Reads s a) :
    setting lookup name fallback read reason = .ok a ↔ Given (lookup name) fallback Reads a := by
  unfold setting Given
  cases lookup name with
  | none => simp [eq_comm]
  | some s =>
    simp only [← hread]
    cases read s with
    | none => simp
    | some b => simp

theorem setting_eq_error_iff (hread : ∀ s a, read s = some a ↔ Reads s a) {e : ConfigError} :
    setting lookup name fallback read reason = .error e ↔
      ∃ s, lookup name = some s ∧ (∀ a, ¬ Reads s a) ∧ e = .invalidValue name s reason := by
  unfold setting
  cases lookup name with
  | none => simp
  | some s =>
    simp only [← hread, Option.some.injEq, exists_eq_left']
    cases read s with
    | none => simp [eq_comm]
    | some b => simp

end

variable {lookup : String → Option String}

theorem no_word {s : String} :
    (∀ w : UInt64, ¬ Writes s w.toNat) ↔ ∀ n < UInt64.size, ¬ Writes s n := by
  constructor
  · intro h n hn hs
    exact h (.ofNat n) ((UInt64.toNat_ofNat_of_lt' hn).symm ▸ hs)
  · exact fun h w => h w.toNat w.toNat_lt

theorem no_milliseconds {s : String} :
    (∀ d, ¬ WritesMilliseconds s d) ↔ ∀ n < UInt64.size, ¬ Writes s n := by
  constructor
  · intro h n hn hs
    refine h (.ofMilliseconds (.ofNat n)) ⟨n, hn, hs, ?_⟩
    rw [nanoseconds_ofMilliseconds, UInt64.toNat_ofNat_of_lt' hn]
  · rintro h d ⟨n, hn, hs, -⟩
    exact h n hn hs

theorem ofVariables_eq_ok_iff {c : Config} :
    ofVariables lookup = .ok c ↔ Matches lookup c ∧ c.Usable := by
  simp only [ofVariables, Steps.bind_eq_ok_iff, setting_eq_ok_iff fun _ _ => ofName?_eq_some_iff,
    setting_eq_ok_iff fun _ _ => word?_eq_some_iff,
    setting_eq_ok_iff fun _ _ => milliseconds?_eq_some_iff]
  constructor
  · rintro ⟨storage, hstorage, maxSizeMb, hsize, timeout, htimeout, ⟨⟩, hvalid, h⟩
    cases h
    exact ⟨⟨hstorage, rfl, hsize, htimeout⟩, validate_eq_ok_iff.mp hvalid⟩
  · rintro ⟨h, hc⟩
    refine ⟨c.storage, h.storage, c.maxSizeMb, h.maxSizeMb, c.timeout, h.timeout, (), ?_, ?_⟩
    · rw [← h.path]
      exact validate_eq_ok_iff.mpr hc
    · rw [← h.path]
      rfl

theorem ofVariables_eq_error_iff {e : ConfigError} :
    ofVariables lookup = .error e ↔ Refused lookup e := by
  simp only [ofVariables, Steps.bind_eq_error_iff, setting_eq_ok_iff fun _ _ => ofName?_eq_some_iff,
    setting_eq_ok_iff fun _ _ => word?_eq_some_iff,
    setting_eq_ok_iff fun _ _ => milliseconds?_eq_some_iff,
    setting_eq_error_iff fun _ _ => ofName?_eq_some_iff,
    setting_eq_error_iff fun _ _ => word?_eq_some_iff,
    setting_eq_error_iff fun _ _ => milliseconds?_eq_some_iff, validate_eq_error_iff, no_word,
    no_milliseconds]
  constructor
  · rintro (⟨s, hs, hno, rfl⟩ | ⟨k, hk, ⟨s, hs, hno, rfl⟩ | ⟨w, hw, ⟨s, hs, hno, rfl⟩ |
      ⟨d, hd, he | ⟨-, -, he⟩⟩⟩⟩)
    · exact .storage hs hno
    · exact .maxSize hk hs hno
    · exact .timeout hk hw hs hno
    · exact .faulty ⟨hk, rfl, hw, hd⟩ he
    · exact nomatch he
  · rintro (⟨hs, hno⟩ | ⟨hk, hs, hno⟩ | ⟨hk, hw, hs, hno⟩ | ⟨h, he⟩)
    · exact .inl ⟨_, hs, hno, rfl⟩
    · exact .inr ⟨_, hk, .inl ⟨_, hs, hno, rfl⟩⟩
    · exact .inr ⟨_, hk, .inr ⟨_, hw, .inl ⟨_, hs, hno, rfl⟩⟩⟩
    · refine .inr ⟨_, h.storage, .inr ⟨_, h.maxSizeMb, .inr ⟨_, h.timeout, .inl ?_⟩⟩⟩
      rw [← h.path]
      exact he

/-- Nothing but the four variables is looked up. -/
theorem ofVariables_congr {lookup' : String → Option String}
    (h : ∀ name ∈ Variable.names, lookup' name = lookup name) :
    ofVariables lookup' = ofVariables lookup := by
  have hstorage := h Variable.storage (by simp [Variable.names])
  have hpath := h Variable.path (by simp [Variable.names])
  have hsize := h Variable.maxSize (by simp [Variable.names])
  have htimeout := h Variable.timeout (by simp [Variable.names])
  simp only [ofVariables, setting, hstorage, hpath, hsize, htimeout]

theorem matches_toVariables {c : Config} {name : String} (hname : Names name c.storage)
    {n : Nat} (hn : n < UInt64.size) (ht : c.timeout.nanoseconds = n * 1000000) :
    Matches (c.toVariables name) c where
  storage := hname
  path := rfl
  maxSizeMb := writes_toString _
  timeout := by
    refine ⟨n, hn, ?_, ht⟩
    have hmillis : c.timeout.milliseconds = n := by
      rw [Duration.milliseconds, ht, Nat.mul_div_cancel _ (by decide)]
    rw [← hmillis]
    exact writes_toString _

/-- What the variables make is what they ask for, if a store can work with it, and the first
complaint otherwise; nothing else is looked up. The variables that write usable settings, whose
deadline is a whole number of milliseconds, make them again. -/
theorem ofVariables_exact :
    (∀ lookup : String → Option String,
      (∀ lookup', (∀ name ∈ Variable.names, lookup' name = lookup name) →
        ofVariables lookup' = ofVariables lookup) ∧
      (∀ c, ofVariables lookup = .ok c ↔ Matches lookup c ∧ c.Usable) ∧
      (∀ c, ofVariables lookup = .ok c → c.validate = .ok ()) ∧
      (∀ e, ofVariables lookup = .error e ↔ Refused lookup e)) ∧
    ∀ c : Config, c.validate = .ok () →
      (∃ n < UInt64.size, c.timeout.nanoseconds = n * 1000000) →
      ∀ name, Names name c.storage → ofVariables (c.toVariables name) = .ok c := by
  refine ⟨fun lookup => ⟨fun _ => ofVariables_congr, fun _ => ofVariables_eq_ok_iff,
    fun c hc => ?_, fun _ => ofVariables_eq_error_iff⟩, ?_⟩
  · exact validate_eq_ok_iff.mpr (ofVariables_eq_ok_iff.mp hc).2
  · rintro c hvalid ⟨n, hn, ht⟩ name hname
    exact ofVariables_eq_ok_iff.mpr
      ⟨matches_toVariables hname hn ht, validate_eq_ok_iff.mp hvalid⟩

/-- Settings for stores on disk are made again, whatever the case of the name and the blanks around
it. A size with another sign is refused before a deadline of zero is. -/
theorem ofVariables_exact_disk :
    let c : Config := ⟨.disk, "/var/cache", 512, .ofMilliseconds 1500⟩
    ofVariables (c.toVariables " LmDb\t") = .ok c ∧
      ofVariables (fun name => if name = Variable.maxSize then some " -1"
        else if name = Variable.timeout then some "0" else none) =
        .error (.invalidValue Variable.maxSize " -1" "expected a non-negative integer") := by
  refine ⟨ofVariables_exact.2 _ (by decide) ⟨1500, by decide, by decide⟩ _ ?_,
    ((ofVariables_exact.1 _).2.2.2 _).mpr (.maxSize (k := .memory) ?_ ?_ ?_)⟩
  · exact names_iff.mpr (by decide)
  · rfl
  · rfl
  · have hnone : word? " -1" = none := by decide
    exact no_word.mp fun w hw => nomatch hnone.symm.trans (word?_eq_some_iff.mpr hw)

end Config

end AccessCache
