import AccessCache.Disk.Record
import AccessCache.Proofs.Json.Object

/-!
# Reading records

A record is read from its own bytes (`Record.decode_encode`), so that the bytes of a record
determine it. The contents of records are texts, and pairs of texts.
-/

namespace AccessCache.Disk

open Json Json.Reader

/-! ## Contents -/

/-- Contents that are read back as they were written. -/
class Content.Lawful (α : Type) [Content α] : Prop where
  reader_print (a : α) (rest : Bytes) :
    (Content.reader : Reader α) (Bytes.ofChars (Content.print a) ++ rest) = .ok (a, rest)

instance (n : Noun) : Content.Lawful (Id n) where
  reader_print i rest := map_ok (string_print i.text rest)

instance : Content.Lawful CredentialKey where
  reader_print k rest := map_ok (string_print k.secret rest)

/-- An array of two texts as it was written, taken apart. -/
theorem array_append (s t : String) (rest : Bytes) :
    Bytes.ofChars (Printer.array [Printer.text s, Printer.text t]) ++ rest =
      ('[' : UInt8) :: (Bytes.ofChars (Printer.text s) ++
        (',' : UInt8) :: (Bytes.ofChars (Printer.text t) ++ (']' : UInt8) :: rest)) := by
  have h := intercalate_further ']' (Printer.text s) [Printer.text t] rest
  rw [Printer.array, Bytes.ofChars_append, List.append_assoc]
  exact congrArg (('[' : UInt8) :: ·) h

/-- Two texts in an array, whatever the readers make of the texts. -/
theorem pairReader_text {α β : Type} {first : Reader α} {second : Reader β} {a : α} {b : β}
    (s t : String) (rest : Bytes)
    (ha : ∀ rest, first (Bytes.ofChars (Printer.text s) ++ rest) = .ok (a, rest))
    (hb : ∀ rest, second (Bytes.ofChars (Printer.text t) ++ rest) = .ok (b, rest)) :
    pairReader first second
      (Bytes.ofChars (Printer.array [Printer.text s, Printer.text t]) ++ rest) =
        .ok ((a, b), rest) := by
  let second' := Bytes.ofChars (Printer.text t) ++ (']' : UInt8) :: rest
  let first' := Bytes.ofChars (Printer.text s) ++ (',' : UInt8) :: second'
  have hfirst : moreElements true first' = .ok (true, first') := by
    simp only [first', text_append]
    exact moreElements_first _
  have hnext : moreElements false (',' :: second') = .ok (true, second') := by
    simp only [second', text_append]
    exact moreElements_next _
  rw [array_append, pairReader]
  refine (bind_ok (x := peek .value) (a := '[') rfl).trans ?_
  rw [if_pos rfl]
  refine (bind_ok (x := take) (a := ()) rfl).trans ?_
  refine (bind_ok hfirst).trans ?_
  refine (bind_ok (ha _)).trans ?_
  refine (bind_ok hnext).trans ?_
  refine (bind_ok (hb _)).trans ?_
  exact bind_ok (endArray_cons rest)

instance : Content.Lawful RoleKey where
  reader_print k rest := map_ok (pairReader_text k.group.text k.member.text rest
    (Content.Lawful.reader_print k.group) (Content.Lawful.reader_print k.member))

/-! ## Records -/

namespace Record

variable {κ ν : Type} [Content κ] [Content ν] [Content.Lawful κ] [Content.Lawful ν]

theorem fills (r : Record κ ν) :
    Fills (shape (κ := κ) (ν := ν)).member
      [("key", Content.print r.key), ("value", Content.print r.value)] {}
      { key := some r.key, value := some r.value } := by
  refine .cons { key := some r.key } (fun rest _ => ?_) (.cons _ (fun rest _ => ?_) .nil)
  · exact Shape.member_of_field rfl rfl (bind_ok (Content.Lawful.reader_print r.key rest))
  · exact Shape.member_of_field rfl rfl (bind_ok (Content.Lawful.reader_print r.value rest))

theorem reader_print (r : Record κ ν) (rest : Bytes) :
    (reader : Reader (Record κ ν)) (Bytes.ofChars r.print ++ rest) = .ok (r, rest) :=
  Shape.read_print r.fills rfl rfl rest

/-- A record is read from its own bytes. -/
@[simp] theorem decode_encode (r : Record κ ν) : decode r.encode = .ok r := by
  have h := reader_print r []
  rw [List.append_nil] at h
  simp only [decode, encode, utf8_ofList, runBytes_ok h]

theorem encode_inj {r r' : Record κ ν} (h : r.encode = r'.encode) : r = r' := by
  have h' := congrArg (decode (κ := κ) (ν := ν)) h
  rw [decode_encode, decode_encode] at h'
  exact Except.ok.inj h'

end Record

end AccessCache.Disk
