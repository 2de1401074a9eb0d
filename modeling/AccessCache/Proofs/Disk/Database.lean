import AccessCache.Proofs.Disk.Record
import AccessCache.Proofs.Lawful
import AccessCache.Proofs.Steps

/-!
# Databases of records

A database in which every record stands in its own place is a set of records: writing adds one and
takes away whatever stood in its place. Where the place follows from the key alone, the database
is a lawful map of the keys (`Stored.placed_insert`, `Stored.placed_erase`).
-/

namespace AccessCache.Disk

open Std

/-- What was found, and nothing where looking failed. -/
def found {α : Type} : Except StoreError (Option α) → Option α
  | .ok v => v
  | .error _ => none

namespace Database

/-! ## Writing -/

theorem eq_insert_of_put {capacity : Option Nat} {b bs : Bytes} {db db' : Database}
    (h : db.put capacity b bs = .ok db') : db' = db.insert b bs := by
  unfold put at h
  split_ifs at h
  cases h
  rfl

variable {κ ν : Type} [Content κ] [Content ν] {place : Record κ ν → Bytes} {db : Database}
  {r r' : Record κ ν}

/-- The record stands in its place. -/
def Has (place : Record κ ν → Bytes) (db : Database) (r : Record κ ν) : Prop :=
  db[place r]? = some r.encode

/-- Everything in the database is a record in its place. -/
def Stored (place : Record κ ν → Bytes) (db : Database) : Prop :=
  ∀ b bs, db[b]? = some bs → ∃ r : Record κ ν, b = place r ∧ bs = r.encode

theorem stored_empty : Stored place ∅ := by
  intro b bs h
  simp at h

theorem not_has_empty : ¬ Has place ∅ r := by
  simp [Has]

theorem Stored.insert (h : Stored place db) (r : Record κ ν) :
    Stored place (db.insert (place r) r.encode) := by
  intro b bs hb
  rw [getElem?_insert_eq] at hb
  split_ifs at hb with hp
  · exact ⟨r, hp, (Option.some.inj hb).symm⟩
  · exact h b bs hb

theorem Stored.erase (h : Stored place db) (b : Bytes) : Stored place (db.erase b) := by
  intro b' bs hb
  rw [getElem?_erase_eq] at hb
  split_ifs at hb
  exact h b' bs hb

theorem has_erase {b : Bytes} :
    Has place (db.erase b) r ↔ place r ≠ b ∧ Has place db r := by
  unfold Has
  rw [getElem?_erase_eq]
  split_ifs with hp <;> simp [hp]

variable [Content.Lawful κ] [Content.Lawful ν]

/-- A place holds one record. -/
theorem Has.unique (h : Has place db r) (h' : Has place db r') (hp : place r = place r') :
    r = r' := by
  unfold Has at h h'
  rw [hp, h'] at h
  exact Record.encode_inj (Option.some.inj h).symm

theorem has_insert (r r' : Record κ ν) :
    Has place (db.insert (place r) r.encode) r' ↔
      r' = r ∨ place r' ≠ place r ∧ Has place db r' := by
  unfold Has
  rw [getElem?_insert_eq]
  by_cases hp : place r' = place r
  · rw [if_pos hp, Option.some.injEq]
    constructor
    · exact fun he => .inl (Record.encode_inj he).symm
    · rintro (rfl | ⟨hne, _⟩)
      · rfl
      · exact absurd hp hne
  · rw [if_neg hp]
    constructor
    · exact fun he => .inr ⟨hp, he⟩
    · rintro (rfl | ⟨_, he⟩)
      · exact absurd rfl hp
      · exact he

/-! ## Reading -/

/-- Reading a place finds the record that stands there. -/
theorem Stored.record? (h : Stored place db) (b : Bytes) :
    ∃ o : Option (Record κ ν), db.record? b = .ok o ∧
      ∀ r, o = some r ↔ place r = b ∧ Has place db r := by
  unfold Database.record?
  cases hb : db[b]? with
  | none =>
    refine ⟨none, rfl, fun r => ⟨nofun, ?_⟩⟩
    rintro ⟨rfl, hr⟩
    rw [Has, hb] at hr
    cases hr
  | some bs =>
    obtain ⟨r, rfl, rfl⟩ := h b bs hb
    refine ⟨some r, by simp, fun r' => ⟨?_, ?_⟩⟩
    · rintro ⟨⟩
      exact ⟨rfl, hb⟩
    · rintro ⟨hp, hr⟩
      exact congrArg some (Has.unique hb hr hp.symm)

/-- Entries that are records in their places can all be read. -/
theorem mapM_decode (es : List (Bytes × Bytes))
    (h : ∀ e ∈ es, ∃ r : Record κ ν, e = (place r, r.encode)) :
    ∃ rs : List (Bytes × Record κ ν),
      (es.mapM fun e => do pure (e.1, ← Record.decode e.2) : Except StoreError _) = .ok rs ∧
      ∀ e, e ∈ rs ↔ e.1 = place e.2 ∧ (place e.2, e.2.encode) ∈ es := by
  induction es with
  | nil => exact ⟨[], rfl, by simp⟩
  | cons e es ih =>
    obtain ⟨rs, hrs, hmem⟩ := ih fun e he => h e (List.mem_cons_of_mem _ he)
    obtain ⟨r, rfl⟩ := h e List.mem_cons_self
    refine ⟨(place r, r) :: rs, ?_, fun e => ?_⟩
    · rw [List.mapM_cons, hrs, Record.decode_encode]
      rfl
    · rw [List.mem_cons, List.mem_cons, hmem]
      constructor
      · rintro (rfl | ⟨hp, he⟩)
        · exact ⟨rfl, .inl rfl⟩
        · exact ⟨hp, .inr he⟩
      · rintro ⟨hp, heq | he⟩
        · have he : e.2 = r := Record.encode_inj (Prod.mk.inj heq).2
          exact .inl (Prod.ext (hp.trans (congrArg place he)) he)
        · exact .inr ⟨hp, he⟩

/-- Scanning finds the records whose places begin as asked for. -/
theorem Stored.records (h : Stored place db) (start : Bytes) :
    ∃ rs : List (Bytes × Record κ ν), db.records start = .ok rs ∧
      ∀ e, e ∈ rs ↔ e.1 = place e.2 ∧ start <+: place e.2 ∧ Has place db e.2 := by
  have hscan : ∀ e : Bytes × Bytes, e ∈ db.scan start ↔ db[e.1]? = some e.2 ∧ start <+: e.1 := by
    intro e
    rw [scan, List.mem_filter, ExtTreeMap.mem_toList_iff_getElem?_eq_some,
      List.isPrefixOf_iff_prefix]
  have hstored : ∀ e ∈ db.scan start, ∃ r : Record κ ν, e = (place r, r.encode) := by
    rintro ⟨b, bs⟩ he
    obtain ⟨r, rfl, rfl⟩ := h b bs ((hscan _).mp he).1
    exact ⟨r, rfl⟩
  obtain ⟨rs, hrs, hmem⟩ := mapM_decode (db.scan start) hstored
  refine ⟨rs, hrs, fun e => ?_⟩
  rw [hmem, hscan, Has, @and_comm (start <+: _)]

omit [Content.Lawful κ] [Content.Lawful ν] in
/-- Reading records leaves their keys as they are, each once. -/
theorem nodup_of_records {start : Bytes} {rs : List (Bytes × Record κ ν)}
    (h : db.records start = .ok rs) : (rs.map Prod.fst).Nodup := by
  have hfst : ∀ (es : List (Bytes × Bytes)) (rs : List (Bytes × Record κ ν)),
      (es.mapM fun e => do pure (e.1, ← Record.decode e.2) : Except StoreError _) = .ok rs →
        rs.map Prod.fst = es.map Prod.fst := by
    intro es
    induction es with
    | nil =>
      rintro _ ⟨⟩
      rfl
    | cons e es ih =>
      intro rs hrs
      rw [List.mapM_cons] at hrs
      obtain ⟨_, hr, hrs⟩ := Steps.bind_eq_ok_iff.mp hrs
      obtain ⟨_, hes, hrs⟩ := Steps.bind_eq_ok_iff.mp hrs
      cases hrs
      obtain ⟨_, _, hr⟩ := Steps.bind_eq_ok_iff.mp hr
      cases hr
      rw [List.map_cons, List.map_cons, ih _ hes]
  rw [hfst _ _ h]
  have hkeys : (db.toList.map Prod.fst).Nodup := by
    rw [ExtTreeMap.map_fst_toList_eq_keys]
    exact ExtTreeMap.nodup_keys
  exact hkeys.sublist (List.filter_sublist.map _)

/-- The records of a database, as many as it has entries. -/
theorem Stored.exists_records (h : Stored place db) :
    ∃ rs : List (Record κ ν), rs.Nodup ∧ (∀ r, r ∈ rs ↔ Has place db r) ∧ db.size = rs.length := by
  obtain ⟨bs, hnd, hmem, hsize⟩ := counts_size db
  have hmap : ∀ l : List Bytes, (∀ b ∈ l, (db[b]?).isSome) →
      ∃ rs : List (Record κ ν), rs.map place = l ∧ ∀ r ∈ rs, Has place db r := by
    intro l hl
    induction l with
    | nil => exact ⟨[], rfl, by simp⟩
    | cons b l ih =>
      obtain ⟨rs, rfl, hrs⟩ := ih fun b hb => hl b (List.mem_cons_of_mem _ hb)
      obtain ⟨v, hv⟩ := Option.isSome_iff_exists.mp (hl b List.mem_cons_self)
      obtain ⟨r, rfl, rfl⟩ := h b v hv
      exact ⟨r :: rs, rfl, List.forall_mem_cons.mpr ⟨hv, hrs⟩⟩
  obtain ⟨rs, rfl, hrs⟩ := hmap bs fun b hb => (hmem b).mp hb
  refine ⟨rs, ?_, fun r => ⟨hrs r, fun hr => ?_⟩, by simpa using hsize⟩
  · exact (List.pairwise_map.mp hnd).imp fun hne he => hne (congrArg place he)
  · have hp : place r ∈ rs.map place := (hmem _).mpr (Option.isSome_of_eq_some hr)
    obtain ⟨r', hr', hpp⟩ := List.mem_map.mp hp
    exact (Has.unique (hrs r' hr') hr hpp) ▸ hr'

/-! ## Places that follow from keys -/

/-- A place for each key. -/
def byKey (ν : Type) (slot : κ → Bytes) (r : Record κ ν) : Bytes := slot r.key

/-- The value that a database has for a key. -/
def values [DecidableEq κ] (ν : Type) [Content ν] (slot : κ → Bytes) (db : Database) (k : κ) :
    Option ν :=
  found (db.value? (slot k) k)

variable [DecidableEq κ] {slot : κ → Bytes}

theorem Stored.exists_value (h : Stored (byKey ν slot) db) (k : κ) :
    ∃ o : Option ν, db.value? (slot k) k = .ok o ∧
      ∀ v, o = some v ↔ Has (byKey ν slot) db ⟨k, v⟩ := by
  obtain ⟨o, ho, hr⟩ := h.record? (slot k)
  refine ⟨(o.filter (·.key = k)).map (·.value), ?_, fun v => ?_⟩
  · unfold value?
    rw [ho]
    rfl
  · rw [Option.map_eq_some_iff]
    constructor
    · rintro ⟨⟨k', v'⟩, hf, rfl⟩
      obtain ⟨rfl, hk⟩ := Option.filter_eq_some_iff.mp hf
      obtain rfl : k' = k := by simpa using hk
      exact ((hr _).mp rfl).2
    · intro hv
      refine ⟨⟨k, v⟩, ?_, rfl⟩
      rw [(hr ⟨k, v⟩).mpr ⟨rfl, hv⟩]
      simp [Option.filter]

theorem Stored.value? (h : Stored (byKey ν slot) db) (k : κ) :
    db.value? (slot k) k = .ok (db.values ν slot k) := by
  obtain ⟨o, ho, _⟩ := h.exists_value k
  rw [values, ho]
  rfl

theorem Stored.values_eq_some_iff (h : Stored (byKey ν slot) db) {k : κ} {v : ν} :
    db.values ν slot k = some v ↔ Has (byKey ν slot) db ⟨k, v⟩ := by
  obtain ⟨o, ho, hv⟩ := h.exists_value k
  rw [values, ho]
  exact hv v

theorem Stored.values_eq_none (h : Stored (byKey ν slot) db) {k : κ}
    (hk : ∀ v : ν, ¬ Has (byKey ν slot) db ⟨k, v⟩) : db.values ν slot k = none :=
  Option.eq_none_iff_forall_ne_some.mpr fun v hv => hk v (h.values_eq_some_iff.mp hv)

/-- Writing the value of a key takes away whatever else stands in its place. -/
theorem Stored.placed_insert (h : Stored (byKey ν slot) db) (k : κ) (v : ν) :
    Placed (fun k k' => slot k = slot k') k (some v) (db.values ν slot)
      (Database.values ν slot (db.insert (slot k) (Record.encode ⟨k, v⟩))) := by
  have h' : Stored (byKey ν slot) (db.insert (slot k) (Record.encode (⟨k, v⟩ : Record κ ν))) :=
    h.insert ⟨k, v⟩
  have hhas : ∀ k' v', Has (byKey ν slot) (db.insert (slot k) (Record.encode ⟨k, v⟩)) ⟨k', v'⟩ ↔
      (⟨k', v'⟩ : Record κ ν) = ⟨k, v⟩ ∨ slot k' ≠ slot k ∧ Has (byKey ν slot) db ⟨k', v'⟩ :=
    fun k' v' => has_insert ⟨k, v⟩ ⟨k', v'⟩
  refine ⟨h'.values_eq_some_iff.mpr ((hhas k v).mpr (.inl rfl)), fun k' hne => ?_⟩
  by_cases hs : slot k' = slot k
  · refine .inr ⟨hs.symm, h'.values_eq_none fun v' hv' => ?_⟩
    rcases (hhas k' v').mp hv' with heq | ⟨hs', _⟩
    · cases heq
      exact hne rfl
    · exact hs' hs
  · refine .inl (Option.ext fun v' => ?_)
    rw [h'.values_eq_some_iff, h.values_eq_some_iff, hhas]
    constructor
    · rintro (heq | ⟨_, hv'⟩)
      · cases heq
        exact absurd rfl hne
      · exact hv'
    · exact fun hv' => .inr ⟨hs, hv'⟩

theorem Stored.placed_erase (h : Stored (byKey ν slot) db) (k : κ) :
    Placed (fun k k' => slot k = slot k') k none (db.values ν slot)
      (Database.values ν slot (db.erase (slot k))) := by
  have h' : Stored (byKey ν slot) (db.erase (slot k)) := h.erase (slot k)
  have hgone : ∀ k', slot k' = slot k → Database.values ν slot (db.erase (slot k)) k' = none := by
    intro k' hs
    exact h'.values_eq_none fun v hv => (has_erase.mp hv).1 hs
  refine ⟨hgone k rfl, fun k' _ => ?_⟩
  by_cases hs : slot k' = slot k
  · exact .inr ⟨hs.symm, hgone k' hs⟩
  · refine .inl (Option.ext fun v => ?_)
    rw [h'.values_eq_some_iff, h.values_eq_some_iff, has_erase]
    exact ⟨And.right, fun hv => ⟨hs, hv⟩⟩

theorem Stored.counts (h : Stored (byKey ν slot) db) : Counts db.size (db.values ν slot) := by
  obtain ⟨rs, hnd, hmem, hsize⟩ := h.exists_records
  refine ⟨rs.map (·.key), ?_, fun k => ?_, by simpa using hsize⟩
  · refine List.pairwise_map.mpr (hnd.imp_of_mem fun ha hb hne hk => hne ?_)
    exact Has.unique ((hmem _).mp ha) ((hmem _).mp hb) (congrArg slot hk)
  · rw [List.mem_map, Option.isSome_iff_exists]
    constructor
    · rintro ⟨⟨k, v⟩, hr, rfl⟩
      exact ⟨v, h.values_eq_some_iff.mpr ((hmem _).mp hr)⟩
    · rintro ⟨v, hv⟩
      exact ⟨⟨k, v⟩, (hmem _).mpr (h.values_eq_some_iff.mp hv), rfl⟩

end Database

end AccessCache.Disk
