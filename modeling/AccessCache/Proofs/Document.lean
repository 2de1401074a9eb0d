import AccessCache.Config.Document
import AccessCache.Proofs.Disk.Record
import AccessCache.Proofs.Json.Number

/-!
# What is stored is read back

Records and settings are read from their own documents, whatever characters their texts hold and
however large their numbers are. Settings are an object with a text, a number and another object in
it, so that each kind of member is read as far as it was written (`Config.fills`).
-/

namespace AccessCache

open Json Json.Reader

/-! ## Durations -/

namespace Duration

/-- The parts of a duration carry nothing over. -/
theorem ofParts?_parts (d : Duration) : ofParts? d.secs d.nanos = some d := by
  obtain ⟨s, n, hs, hn⟩ := d
  have hcarry : s + n / 1000000000 = s := by rw [Nat.div_eq_of_lt hn, Nat.add_zero]
  simp only [ofParts?, hcarry, Nat.mod_eq_of_lt hn, hs, dif_pos]

theorem fills (d : Duration) :
    Fills shape.member [("secs", Printer.natural d.secs), ("nanos", Printer.natural d.nanos)] {}
      { secs := some d.secs, nanos := some d.nanos } := by
  have hnanos : d.nanos < UInt32.size := Nat.lt_trans d.nanos_lt (by decide)
  refine .cons { secs := some d.secs } (fun rest hrest => ?_) (.cons _ (fun rest hrest => ?_) .nil)
  · have hword := word_natural d.secs_lt (Nat.le_refl _) hrest "u64"
    exact Shape.member_of_field rfl rfl (bind_ok hword)
  · have hword := word_natural hnanos (by decide) hrest "u32"
    exact Shape.member_of_field rfl rfl (bind_ok hword)

theorem reader_print (d : Duration) (rest : Bytes) :
    reader (Bytes.ofChars d.print ++ rest) = .ok (d, rest) := by
  refine Shape.read_print d.fills rfl ?_ rest
  simp only [shape, Option.getD_some, ofParts?_parts]

end Duration

/-! ## Settings -/

theorem StorageKind.reader_print (k : StorageKind) (rest : Bytes) :
    reader (Bytes.ofChars k.print ++ rest) = .ok (k, rest) := by
  refine choice_print ?_ rest
  cases k
  · rfl
  · rfl

namespace Config

theorem fills (c : Config) :
    Fills shape.member [
        ("backend", c.storage.print),
        ("lmdb_path", Printer.text c.path),
        ("lmdb_max_size_mb", Printer.natural c.maxSizeMb.toNat),
        ("operation_timeout", c.timeout.print)] {}
      ⟨some c.storage, some c.path, some c.maxSizeMb, some c.timeout⟩ := by
  let p₁ : Parts := { storage := some c.storage }
  let p₂ : Parts := { p₁ with path := some c.path }
  let p₃ : Parts := { p₂ with maxSizeMb := some c.maxSizeMb }
  refine .cons p₁ (fun rest _ => ?_) (.cons p₂ (fun rest _ => ?_) (.cons p₃ (fun rest hrest => ?_)
    (.cons _ (fun rest _ => ?_) .nil)))
  · exact Shape.member_of_field rfl rfl (bind_ok (c.storage.reader_print rest))
  · exact Shape.member_of_field rfl rfl (bind_ok (textOf_print _ c.path rest))
  · have hword := word_natural c.maxSizeMb.toNat_lt (Nat.le_refl _) hrest "usize"
    refine Shape.member_of_field rfl rfl ((bind_ok hword).trans ?_)
    rw [UInt64.ofNat_toNat]
    rfl
  · exact Shape.member_of_field rfl rfl (bind_ok (c.timeout.reader_print rest))

theorem reader_print (c : Config) (rest : Bytes) :
    reader (Bytes.ofChars c.print ++ rest) = .ok (c, rest) :=
  Shape.read_print c.fills rfl rfl rest

/-- Settings are read from their own document. -/
theorem read_print (c : Config) : read (String.ofList c.print) = .ok c := by
  have h := c.reader_print []
  rw [List.append_nil] at h
  exact run_ofList h

end Config

/-! ## Records and settings -/

/-- The bytes of a record are read as that record, and no other record has the same bytes. -/
def Disk.ReadsBack (κ ν : Type) [Disk.Content κ] [Disk.Content ν] : Prop :=
  (∀ r : Disk.Record κ ν, Disk.Record.decode r.encode = .ok r) ∧
    Function.Injective (Disk.Record.encode : Disk.Record κ ν → Bytes)

theorem Disk.readsBack (κ ν : Type) [Disk.Content κ] [Disk.Content ν] [Disk.Content.Lawful κ]
    [Disk.Content.Lawful ν] : Disk.ReadsBack κ ν :=
  ⟨Disk.Record.decode_encode, fun _ _ => Disk.Record.encode_inj⟩

/-- Every kind of record that is stored, and all settings, are read back as they were written. -/
theorem stored_exact :
    Disk.ReadsBack CredentialKey DeviceId ∧ Disk.ReadsBack DeviceId CredentialKey ∧
    (∀ child parent : Noun, Disk.ReadsBack (Id child) (Id parent)) ∧
    Disk.ReadsBack RoleKey Role ∧ Disk.ReadsBack MemberId GroupId ∧
    ∀ c : Config, Config.read (String.ofList c.print) = .ok c :=
  ⟨Disk.readsBack _ _, Disk.readsBack _ _, fun _ _ => Disk.readsBack _ _, Disk.readsBack _ _,
    Disk.readsBack _ _, Config.read_print⟩

end AccessCache
