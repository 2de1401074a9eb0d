import AccessCache.Proofs.Session.Backend
import AccessCache.Proofs.Session.Statistics

/-!
# Removals in the journal

A removal that takes place writes one entry, and what the field `removed` of that entry says is by
how much the table has shrunk (`Removal.Told`). For links and roles this is what erasing from a map
does, in any state. The number of credentials is taken from the reverse side of the table, so there
it needs the tables to be good, by their laws (`CredentialTable.Lawful.tells`).
-/

namespace AccessCache

variable {σ τ β α κ ν : Type}

/-! ## The field -/

/-- The number that a field holds; a flag is read as 0 or 1. -/
def FieldValue.count? : FieldValue → Option Nat
  | text _ => none
  | flag b => some b.toNat
  | number n => some n

/-- What the field `removed` of an entry says, where the entry has one. -/
def Entry.removed? (e : Entry) : Option Nat := (e.fields.lookup "removed").bind FieldValue.count?

/-- An outcome told truthfully: what took place left one entry, by whose field `removed` there are
fewer entries than before; what failed left nothing with such a field. -/
structure Outcome.Told (entries : σ → Nat) (s : σ) (o : Outcome σ (Except CacheError Unit)) :
    Prop where
  ok : o.value = .ok () → ∃ e n, o.journal = [e] ∧ e.level = .debug ∧ e.removed? = some n ∧
    entries s = entries o.state + n
  error : ∀ {err}, o.value = .error err → ∀ e ∈ o.journal, e.removed? = none

/-! ## Tables -/

/-- What a removal says of itself is by how much the table shrinks. -/
def LinkTable.Tells {c p : Noun} (t : LinkTable τ c p) : Prop :=
  ∀ {k s s' b}, t.remove k s = .ok (b, s') → t.size s = t.size s' + b.toNat

def RoleTable.Tells (t : RoleTable τ) : Prop :=
  ∀ {k s s' b}, t.remove k s = .ok (b, s') → t.size s = t.size s' + b.toNat

/-- The keys whose value passes a test and those whose value does not are all keys. -/
theorem Counts.filter_add {m n : Nat} {f : κ → Option ν} {p : ν → Bool}
    (hm : Counts m fun k => (f k).filter p) (hn : Counts n fun k => (f k).filter (!p ·)) :
    Counts (m + n) f := by
  obtain ⟨ks, hnd, hks, rfl⟩ := hm
  obtain ⟨ls, hnd', hls, rfl⟩ := hn
  simp only [Option.isSome_filter] at hks hls
  refine ⟨ks ++ ls, ?_, fun k => ?_, List.length_append.symm⟩
  · refine List.nodup_append.mpr ⟨hnd, hnd', ?_⟩
    rintro k hk _ hl rfl
    have hpass := (hks k).mp hk
    have hfail := (hls k).mp hl
    cases hf : f k with
    | none => simp [hf] at hpass
    | some v => simp_all
  · rw [List.mem_append, hks, hls]
    cases f k with
    | none => simp
    | some v => cases hp : p v <;> simp [hp]

/-- The number that a removal of credentials reports is by how much the table shrinks. -/
theorem CredentialTable.Lawful.tells {t : CredentialTable τ} {good : τ → Prop}
    {view : τ → CredentialKey → Option DeviceId} {shared : String → String → Prop}
    (h : t.Lawful good view shared) {s s' : τ} {d : DeviceId} {n : Nat} (hs : good s)
    (hremove : t.remove d s = .ok (n, s')) : t.size s = t.size s' + n := by
  obtain ⟨_, _, hok, hgood, hview, hcount⟩ := h.remove hs d
  cases hok.symm.trans hremove
  have hrest : Counts (t.size s') fun k => (view s k).filter fun v => !decide (v = d) := by
    have hsize := h.size hgood
    rw [show view s' = _ from funext hview] at hsize
    simpa using hsize
  rw [Nat.add_comm]
  exact (h.size hs).unique (hcount.filter_add hrest) fun _ => rfl

section Maps

open Std

/-- Erasing a key takes one entry away, where the key has one. -/
theorem size_eq_size_erase_add [Ord κ] [TransOrd κ] (m : ExtTreeMap κ ν) (k : κ) :
    m.size = (m.erase k).size + (m.contains k).toNat := by
  rw [ExtTreeMap.size_erase]
  cases hk : m.contains k with
  | false => rfl
  | true =>
    have hne : m.size ≠ 0 := by
      intro hzero
      rw [← ExtTreeMap.eq_empty_iff_size_eq_zero] at hzero
      subst hzero
      exact ExtTreeMap.not_mem_empty (ExtTreeMap.contains_iff_mem.mp hk)
    simp only [if_true, Bool.toNat_true]
    omega

end Maps

theorem Memory.linkTable_tells (c p : Noun) : (Memory.linkTable c p).Tells := by
  rintro k t _ _ ⟨⟩
  exact size_eq_size_erase_add t k

theorem Memory.roleTable_tells : Memory.roleTable.Tells := by
  intro k t t' b hremove
  have hsize := size_eq_size_erase_add t.roles k
  have hremove : t.remove k = (b, t') := Except.ok.inj hremove
  by_cases hk : t.roles.contains k
  · rw [Roles.remove_of_contains hk] at hremove
    cases hremove
    rwa [hk] at hsize
  · rw [Roles.remove_of_not_contains hk] at hremove
    cases hremove
    rfl

theorem Disk.linkTable_tells (capacity : Option Nat) (c p : Noun) :
    (Disk.linkTable capacity c p).Tells := by
  rintro k t _ _ ⟨⟩
  exact size_eq_size_erase_add t.links _

theorem Disk.roleTable_tells (capacity : Option Nat) : (Disk.roleTable capacity).Tells := by
  rintro k t _ _ ⟨⟩
  exact size_eq_size_erase_add t.assignments _

/-! ## Caches -/

namespace Counted

variable {r : Relation} {entry : α → Entry} {f : τ → Except StoreError (α × τ)}
  {p : Part σ (Counted τ)} {s : σ}

/-- A change that takes place is reported by its one entry. -/
theorem change_on_eq {a : α} {t : τ} (hf : f (p.get s).table = .ok (a, t)) :
    ((change r entry f).on p).act s =
      ⟨.ok (), p.set { p.get s with table := t } s, [entry a]⟩ := by
  simp only [change, Call.on, Call.now, Act.on, Act.bind_apply, Act.observe, hf]
  rfl

/-- A change that fails is reported as a failure of the store. -/
theorem change_on_eq_error {e : StoreError} (hf : f (p.get s).table = .error e) :
    ((change r entry f).on p).act s =
      ⟨.error (.unavailable r (.store e)), s, [.storeFailed r e]⟩ := by
  simp only [change, Call.on, Call.now, Act.on, Act.bind_apply, Act.observe, hf]
  exact congrArg (Outcome.mk _ · _) (p.set_get s)

/-- A change is told truthfully if its entry says by how much the table shrinks. -/
theorem told_change_on {entries : σ → Nat} (count : α → Nat)
    (hlevel : ∀ a, (entry a).level = .debug) (hcount : ∀ a, (entry a).removed? = some (count a))
    (hsize : ∀ a t, f (p.get s).table = .ok (a, t) →
      entries s = entries (p.set { p.get s with table := t } s) + count a) :
    (((change r entry f).on p).act s).Told entries s := by
  cases hf : f (p.get s).table with
  | ok at' =>
    obtain ⟨a, t⟩ := at'
    rw [change_on_eq hf]
    exact ⟨fun _ => ⟨entry a, count a, rfl, hlevel a, hcount a, hsize a t hf⟩, nofun⟩
  | error e =>
    rw [change_on_eq_error hf]
    refine ⟨nofun, fun _ e' he' => ?_⟩
    obtain rfl := List.mem_singleton.mp he'
    rfl

end Counted

namespace Tables

variable {C R : Type} {L : Noun → Noun → Type} {ct : CredentialTable C}
  {lt : (c p : Noun) → LinkTable (L c p) c p} {rt : RoleTable R} {gc : C → Prop}
  {vc : C → CredentialKey → Option DeviceId} {shared : String → String → Prop}

/-- Every removal from tables that tell the truth is told truthfully. -/
theorem told_remove (hc : ct.Lawful gc vc shared) (hl : ∀ c p, (lt c p).Tells) (hr : rt.Tells)
    {s : Tables C L R} (hs : gc s.credentials.table) (x : Removal) :
    (((caches ct lt rt).remove x).act s).Told
      (fun s => ((caches ct lt rt).statisticsOf s (Edit.remove x).relation).entries) s := by
  cases x with
  | credentials d =>
    exact Counted.told_change_on id (fun _ => rfl) (fun _ => rfl) fun _ _ => hc.tells hs
  | role k =>
    exact Counted.told_change_on Bool.toNat (fun _ => rfl) (fun _ => rfl) fun _ _ hok => hr hok
  | _ =>
    exact Counted.told_change_on Bool.toNat (fun _ => rfl) (fun _ => rfl) fun _ _ hok => hl _ _ hok

end Tables

/-! ## Backends -/

theorem Backend.told_remove {setup : Setup} {b : Backend} (hb : setup.backend.1 = .ok b)
    {s : b.State} (hs : b.Reached (fun _ => True) s) (x : Removal) :
    ((b.caches.remove x).act s).Told
      (fun s => (b.caches.statisticsOf s (Edit.remove x).relation).entries) s := by
  rcases Setup.backend_cases hb with ⟨_, _, rfl⟩ | ⟨capacity, _, rfl⟩
  · exact Tables.told_remove Memory.credentialTable_lawful Memory.linkTable_tells
      Memory.roleTable_tells (Memory.reached_good hs).1.credentials x
  · exact Tables.told_remove (Disk.credentialTable_lawful capacity) (Disk.linkTable_tells capacity)
      (Disk.roleTable_tells capacity) (Disk.reached_good hs).1.credentials x

theorem Backend.remove_value {setup : Setup} {b : Backend} (hb : setup.backend.1 = .ok b)
    {s : b.State} (hs : b.Reached (fun _ => True) s) (x : Removal) :
    ((b.caches.remove x).act s).value = .ok () := by
  rcases Setup.backend_cases hb with ⟨_, _, rfl⟩ | ⟨capacity, _, rfl⟩
  · exact Tables.remove_value Memory.credentialTable_lawful Memory.linkTable_lawful
      Memory.roleTable_lawful (Memory.reached_good hs).1 x
  · exact Tables.remove_value (Disk.credentialTable_lawful capacity)
      (Disk.linkTable_lawful capacity) (Disk.roleTable_lawful capacity) (Disk.reached_good hs).1 x

/-! ## Worlds -/

/-- What a call tells of the tables it tells in a world, where it takes place there. -/
theorem Call.told_inWorld {call : Call β Unit} {entries : β → Nat} {w : World β}
    (h : (call.act w.tables).Told entries w.tables) (deadline : Option Duration) (r : Relation)
    (m : Method) : ((call.inWorld deadline r m).act w).Told (fun w => entries w.tables) w := by
  rcases Call.act_inWorld_eq deadline r m call w with ⟨d, ho⟩ | ⟨err, p, _, ho⟩ | ⟨p, _, ho⟩
  · rw [ho]
    refine ⟨nofun, fun _ e he => ?_⟩
    obtain rfl := List.mem_singleton.mp he
    rfl
  · rw [ho]
    exact ⟨nofun, fun _ e he => nomatch he⟩
  · rw [ho]
    exact ⟨h.ok, h.error⟩

/-- The field `removed` is truthful: a removal that takes place writes one entry, and there are as
many entries fewer in its cache as the field says; a removal that fails writes no such field. What
neither the plan nor a deadline keeps from taking place does so. -/
theorem Session.removal_told {setup : Setup} {b : Backend} (hb : setup.backend.1 = .ok b)
    (deadline : Option Duration) {w : World b.State} (hw : b.Reached (fun _ => True) w.tables)
    (x : Removal) :
    let c := b.caches.inWorld deadline
    let o := (c.remove x).act w
    let entries w := (c.statisticsOf w (Edit.remove x).relation).entries
    (o.value = .ok () → ∃ e n, o.journal = [e] ∧ e.level = .debug ∧ e.removed? = some n ∧
        entries w = entries o.state + n) ∧
      (∀ err, o.value = .error err → ∀ e ∈ o.journal, e.removed? = none) ∧
      (w.plan.Harmless deadline → o.value = .ok ()) := by
  intro c o entries
  have hcall : c.remove x = (b.caches.remove x).inWorld deadline (Edit.remove x).relation .remove :=
    b.caches.edit_inWorld (.remove x)
  have htold : o.Told entries w := by
    have h := Call.told_inWorld (Backend.told_remove hb hw x) deadline
      (Edit.remove x).relation .remove
    rw [← hcall] at h
    simpa only [entries, c, Caches.statisticsOf_inWorld] using h
  refine ⟨htold.ok, fun _ => htold.error, fun hplan => ?_⟩
  have hnow := Call.act_inWorld_harmless deadline (Edit.remove x).relation .remove
    ((Backend.prompt hb).edit (.remove x)) hplan
  show ((c.remove x).act w).value = _
  rw [hcall]
  exact hnow.1.trans (Backend.remove_value hb hw x)

/-- A device loses two of its keys, and a third key stays. -/
theorem Session.removal_told_keys :
    let b : Backend := .memory [] false
    let es : List Edit := [.save (.credential ⟨"key"⟩ ⟨"device"⟩),
      .save (.credential ⟨"spare"⟩ ⟨"device"⟩), .save (.credential ⟨"other"⟩ ⟨"stranger"⟩)]
    let w : World b.State := { tables := b.caches.after es b.fresh }
    let c := b.caches.inWorld none
    let o := (c.remove (.credentials ⟨"device"⟩)).act w
    ({} : Setup).backend.1 = .ok b ∧ o.journal = [.credentialsRemoved ⟨"device"⟩ 2] ∧
      (c.statisticsOf w .credential).entries =
        (c.statisticsOf o.state .credential).entries + 2 := by
  intro b es w c o
  have hbackend : ({} : Setup).backend.1 = .ok b := rfl
  have hw : b.Reached (fun _ => True) w.tables :=
    .edit (fun _ _ => trivial) (.edit (fun _ _ => trivial) (.edit (fun _ _ => trivial) .fresh))
  have hjournal : o.journal = [.credentialsRemoved ⟨"device"⟩ 2] := by decide
  obtain ⟨htold, -, hdone⟩ := removal_told hbackend none hw (.credentials ⟨"device"⟩)
  obtain ⟨e, n, he, -, hn, hentries⟩ := htold (hdone (Plan.harmless_clear none))
  obtain rfl := List.singleton_inj.mp (hjournal.symm.trans he)
  cases hn
  exact ⟨hbackend, hjournal, hentries⟩

end AccessCache
