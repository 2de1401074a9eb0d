/-!
# Bytes

Byte strings, the UTF-8 bytes of a text and their inverse. `text?_utf8` says that reading the
bytes of a text gives the text back.
-/

namespace AccessCache

/-- A byte string, ordered lexicographically. -/
abbrev Bytes := List UInt8

/-- The UTF-8 bytes of a text. -/
def utf8 (s : String) : Bytes := s.toByteArray.data.toList

/-- The UTF-8 bytes of characters. -/
def Bytes.ofChars (cs : List Char) : Bytes := cs.flatMap String.utf8EncodeChar

/-- The text with these UTF-8 bytes, if there is one. -/
def Bytes.text? (bs : Bytes) : Option String := String.fromUTF8? ⟨bs.toArray⟩

/-- The four bytes of a 32-bit number, highest first. -/
def Bytes.ofWord (w : UInt32) : Bytes :=
  [(w >>> 24).toUInt8, (w >>> 16).toUInt8, (w >>> 8).toUInt8, w.toUInt8]

@[simp] theorem Bytes.length_ofWord (w : UInt32) : (Bytes.ofWord w).length = 4 := rfl

theorem utf8_inj {s t : String} (h : utf8 s = utf8 t) : s = t := by
  apply String.toByteArray_inj.mp
  have h' := congrArg List.toArray h
  simp only [utf8, Array.toArray_toList] at h'
  exact ByteArray.ext h'

@[simp] theorem text?_utf8 (s : String) : Bytes.text? (utf8 s) = some s := by
  have h : (⟨(utf8 s).toArray⟩ : ByteArray) = s.toByteArray := by simp [utf8]
  simp only [Bytes.text?, h, String.fromUTF8?, dif_pos s.isValidUTF8]
  rfl

/-! ## Characters -/

@[simp] theorem utf8_ofList (cs : List Char) : utf8 (String.ofList cs) = Bytes.ofChars cs := by
  show (Bytes.ofChars cs).toByteArray.data.toList = Bytes.ofChars cs
  rw [List.toList_data_toByteArray]

theorem utf8_eq_ofChars (s : String) : utf8 s = Bytes.ofChars s.toList := by
  rw [← utf8_ofList, String.ofList_toList]

namespace Bytes

@[simp] theorem ofChars_nil : ofChars [] = [] := rfl

theorem ofChars_cons (c : Char) (cs : List Char) :
    ofChars (c :: cs) = String.utf8EncodeChar c ++ ofChars cs := rfl

@[simp] theorem ofChars_append (cs ds : List Char) :
    ofChars (cs ++ ds) = ofChars cs ++ ofChars ds :=
  List.flatMap_append

/-- A character of ASCII is its own byte. -/
theorem utf8EncodeChar_of_ascii {c : Char} (h : c.toNat < 0x80) :
    String.utf8EncodeChar c = [c.toUInt8] := by
  have hsize : c.utf8Size = 1 := by
    rw [Char.utf8Size_eq_one_iff, UInt32.le_iff_toNat_le]
    exact Nat.le_of_lt_succ h
  rw [String.utf8EncodeChar_eq_singleton hsize]
  rfl

theorem ofChars_of_ascii {cs : List Char} (h : ∀ c ∈ cs, c.toNat < 0x80) :
    ofChars cs = cs.map Char.toUInt8 := by
  induction cs with
  | nil => rfl
  | cons c cs ih =>
    obtain ⟨hc, hcs⟩ := List.forall_mem_cons.mp h
    rw [ofChars_cons, utf8EncodeChar_of_ascii hc, ih hcs]
    rfl

end Bytes

end AccessCache
