import AccessCache.Json.Printer
import AccessCache.Json.Record
import Mathlib.Tactic.IntervalCases

/-!
# Reading what was written

Texts are read back from their bytes as they were written, whatever characters they hold
(`string_print`). Escapes are taken one character at a time: reading the escape of a character
gives the bytes of the character. All other bytes are taken as they come, and none of them ends
the text (`plain_of_mem_utf8EncodeChar`): they are kept where they are UTF-8 (`text_plain`), and
passed over in any case (`skipText_plain`). The bound of the loop is never reached since every round
takes a byte.
-/

namespace AccessCache.Json.Reader

open Printer (hexDigit)

variable {α β : Type}

/-! ## Steps -/

section

variable {x : Reader α} {bs rest : Bytes} {a : α}

theorem bind_ok {f : α → Reader β} (h : x bs = .ok (a, rest)) : (x >>= f) bs = f a rest := by
  show (x bs >>= _) = _
  rw [h]
  rfl

theorem map_ok {f : α → β} (h : x bs = .ok (a, rest)) : (f <$> x) bs = .ok (f a, rest) := by
  rw [map_eq_pure_bind]
  exact bind_ok h

theorem seqRight_ok {y : Reader β} (h : x bs = .ok (a, rest)) : (x *> y) bs = y rest := by
  rw [seqRight_eq_bind]
  exact bind_ok h

end

/-! ## Escapes -/

theorem hexValue?_hexDigit (n : Nat) : hexValue? (hexDigit n) = some (n % 16) := by
  have h : n % 16 < 16 := Nat.mod_lt _ (by decide)
  unfold hexDigit
  generalize n % 16 = d at h
  interval_cases d <;> rfl

theorem toNat_hexDigit_lt (n : Nat) : (hexDigit n).toNat < 0x80 := by
  have h : n % 16 < 16 := Nat.mod_lt _ (by decide)
  unfold hexDigit
  generalize n % 16 = d at h
  interval_cases d <;> decide

/-- Two digits that write a number below 256. -/
theorem unit_hexDigits {n : Nat} (h : n < 256) (rest : Bytes) :
    unit ('0' :: '0' :: hexDigit (n / 16) :: hexDigit n :: rest) = .ok (n, rest) := by
  have h0 : hexValue? '0' = some 0 := rfl
  have hvalue : ((0 * 16 + 0) * 16 + n / 16 % 16) * 16 + n % 16 = n := by omega
  have hunit : unitOf? '0' '0' (hexDigit (n / 16)) (hexDigit n) = some n := by
    simp only [unitOf?, h0, hexValue?_hexDigit, Option.bind_eq_bind, Option.bind_some, hvalue]
    rfl
  simp only [unit, hunit]

/-- How a control character is written, behind the backslash. -/
def controlEscape (c : Char) : List Char :=
  ['u', '0', '0', hexDigit (c.toNat / 16), hexDigit c.toNat]

theorem controlEscape_append (c : Char) (rest : Bytes) :
    Bytes.ofChars (controlEscape c) ++ rest =
      ('u' : UInt8) :: '0' :: '0' :: hexDigit (c.toNat / 16) :: hexDigit c.toNat :: rest := by
  have h1 := toNat_hexDigit_lt (c.toNat / 16)
  have h2 := toNat_hexDigit_lt c.toNat
  rw [Bytes.ofChars_of_ascii (by simp [controlEscape, h1, h2])]
  rfl

theorem escape_control {c : Char} (h : c.toNat < 0x20) (rest : Bytes) :
    escape (Bytes.ofChars (controlEscape c) ++ rest) = .ok (c, rest) := by
  have htrail : isTrailing c.toNat = false := by unfold isTrailing; simp; omega
  have hlead : isLeading c.toNat = false := by unfold isLeading; simp; omega
  rw [controlEscape_append]
  show codePoint _ = _
  refine (bind_ok (unit_hexDigits (by omega) rest)).trans ?_
  simp only [htrail, hlead, Bool.false_eq_true, if_false, Char.ofNat_toNat]
  rfl

/-! ## Bytes that are no escapes -/

/-- The byte stands for itself inside a text. -/
def Plain (b : UInt8) : Prop := b ≠ '"' ∧ b ≠ '\\' ∧ ¬ b < ' '

theorem plain_of_le {b : UInt8} (h : 0x80 ≤ b.toNat) : Plain b := by
  refine ⟨?_, ?_, ?_⟩
  · rintro rfl
    exact absurd h (by decide)
  · rintro rfl
    exact absurd h (by decide)
  · intro hlt
    have hnat : b.toNat < 0x20 := UInt8.lt_iff_toNat_lt.mp hlt
    omega

/-- Beyond ASCII no byte of a character is one of ASCII. -/
theorem le_of_mem_utf8EncodeChar {c : Char} (hc : ¬ c.toNat < 0x80) {b : UInt8}
    (hb : b ∈ String.utf8EncodeChar c) : 0x80 ≤ b.toNat := by
  have hlow : ¬ c.val.toNat ≤ 0x7f := by
    show ¬ c.toNat ≤ 0x7f
    omega
  have hvalid : c.val.toNat < 0x110000 := c.valid.elim (fun h => Nat.lt_trans h (by decide)) (·.2)
  unfold String.utf8EncodeChar at hb
  simp only [hlow, if_false] at hb
  split_ifs at hb
  · simp only [List.mem_cons, List.not_mem_nil, or_false] at hb
    rcases hb with rfl | rfl <;> simp <;> omega
  · simp only [List.mem_cons, List.not_mem_nil, or_false] at hb
    rcases hb with rfl | rfl | rfl <;> simp <;> omega
  · simp only [List.mem_cons, List.not_mem_nil, or_false] at hb
    rcases hb with rfl | rfl | rfl | rfl <;> simp <;> omega

theorem plain_of_mem_utf8EncodeChar {c : Char} (hquote : c ≠ '"') (hslash : c ≠ '\\')
    (hlow : ¬ c.toNat < 0x20) {b : UInt8} (hb : b ∈ String.utf8EncodeChar c) : Plain b := by
  by_cases hc : c.toNat < 0x80
  · rw [Bytes.utf8EncodeChar_of_ascii hc, List.mem_singleton] at hb
    have hnat : b.toNat = c.toNat := by
      rw [hb]
      show c.toNat % 256 = c.toNat
      omega
    have hne {d : Char} (hd : d.toNat < 0x80) (hcd : c ≠ d) : b ≠ d.toUInt8 := by
      intro heq
      refine hcd (Char.toNat_inj.mp ?_)
      rw [← hnat, heq]
      show d.toNat % 256 = d.toNat
      omega
    refine ⟨hne (by decide) hquote, hne (by decide) hslash, fun hlt => hlow ?_⟩
    exact hnat ▸ UInt8.lt_iff_toNat_lt.mp hlt
  · exact plain_of_le (le_of_mem_utf8EncodeChar hc hb)

theorem characters_plain {bs bound : Bytes} (h : ∀ b ∈ bs, Plain b)
    (hbound : bs.length ≤ bound.length) (done rest : Bytes) :
    characters bound done (bs ++ rest) =
      characters (bound.drop bs.length) (bs.reverse ++ done) rest := by
  induction bs generalizing bound done with
  | nil => rfl
  | cons b bs ih =>
    obtain ⟨_, bound, rfl⟩ := List.exists_cons_of_length_pos (Nat.lt_of_lt_of_le (by simp) hbound)
    obtain ⟨⟨hquote, hslash, hlow⟩, hbs⟩ := List.forall_mem_cons.mp h
    refine (bind_ok (x := next) (a := b) rfl).trans ?_
    rw [if_neg hquote, if_neg hslash, if_neg hlow]
    refine (ih hbs (Nat.le_of_succ_le_succ hbound) (b :: done)).trans ?_
    simp

theorem characters_quote {bound : Bytes} (hbound : 0 < bound.length) (done rest : Bytes) :
    characters bound done (('"' : UInt8) :: rest) = .ok (done.reverse, rest) := by
  obtain ⟨_, bound, rfl⟩ := List.exists_cons_of_length_pos hbound
  refine (bind_ok (x := next) (a := '"') rfl).trans ?_
  rw [if_pos rfl]
  rfl

/-- Bytes that are no escapes are kept where they are UTF-8. -/
theorem text_plain {bs : Bytes} (h : ∀ b ∈ bs, Plain b) (rest : Bytes) :
    text (bs ++ ('"' : UInt8) :: rest) = ofBytes bs rest := by
  have hlength : bs.length < ((' ' : UInt8) :: (bs ++ ('"' : UInt8) :: rest)).length := by
    simp only [List.length_cons, List.length_append]
    omega
  have hread : characters (' ' :: (bs ++ ('"' : UInt8) :: rest)) [] (bs ++ ('"' : UInt8) :: rest) =
      .ok (bs, rest) := by
    rw [characters_plain h (Nat.le_of_lt hlength), characters_quote, List.append_nil,
      List.reverse_reverse]
    exact Nat.lt_of_lt_of_eq (Nat.sub_pos_of_lt hlength) List.length_drop.symm
  exact (bind_ok (x := bound) rfl).trans (bind_ok hread)

theorem skipCharacters_plain {bs bound : Bytes} (h : ∀ b ∈ bs, Plain b)
    (hbound : bs.length < bound.length) (rest : Bytes) :
    skipCharacters bound (bs ++ ('"' : UInt8) :: rest) = .ok ((), rest) := by
  induction bs generalizing bound with
  | nil =>
    obtain ⟨_, bound, rfl⟩ := List.exists_cons_of_length_pos hbound
    rfl
  | cons b bs ih =>
    obtain ⟨_, bound, rfl⟩ := List.exists_cons_of_length_pos (Nat.zero_lt_of_lt hbound)
    obtain ⟨⟨hquote, hslash, hlow⟩, hbs⟩ := List.forall_mem_cons.mp h
    rw [List.cons_append, skipCharacters]
    dsimp only
    rw [if_neg hquote, if_neg hslash, if_neg hlow]
    exact ih hbs (Nat.lt_of_succ_lt_succ hbound)

/-- Bytes that are no escapes are passed over, whether or not they are UTF-8. -/
theorem skipText_plain {bs : Bytes} (h : ∀ b ∈ bs, Plain b) (rest : Bytes) :
    skipText (bs ++ ('"' : UInt8) :: rest) = .ok ((), rest) := by
  refine (bind_ok (x := bound) rfl).trans (skipCharacters_plain h ?_ rest)
  simp only [List.length_cons, List.length_append]
  omega

/-! ## Texts -/

/-- A character is written as an escape that is read as it, or as itself. -/
theorem escape_cases (c : Char) :
    (∃ cs, Printer.escape c = '\\' :: cs ∧
      ∀ rest, escape (Bytes.ofChars cs ++ rest) = .ok (c, rest)) ∨
    Printer.escape c = [c] ∧ ∀ b ∈ String.utf8EncodeChar c, Plain b := by
  unfold Printer.escape
  split_ifs with hq hs hb ht hn hf hr hc
  · subst hq; exact .inl ⟨_, rfl, fun _ => rfl⟩
  · subst hs; exact .inl ⟨_, rfl, fun _ => rfl⟩
  · subst hb; exact .inl ⟨_, rfl, fun _ => rfl⟩
  · subst ht; exact .inl ⟨_, rfl, fun _ => rfl⟩
  · subst hn; exact .inl ⟨_, rfl, fun _ => rfl⟩
  · subst hf; exact .inl ⟨_, rfl, fun _ => rfl⟩
  · subst hr; exact .inl ⟨_, rfl, fun _ => rfl⟩
  · exact .inl ⟨controlEscape c, rfl, escape_control hc⟩
  · exact .inr ⟨rfl, fun _ => plain_of_mem_utf8EncodeChar hq hs hc⟩

/-- One character as it is written is read as the bytes of that character, in no more rounds than
bytes are written. -/
theorem characters_escape (c : Char) {bound : Bytes}
    (hbound : (Bytes.ofChars (Printer.escape c)).length ≤ bound.length) (done rest : Bytes) :
    ∃ n ≤ (Bytes.ofChars (Printer.escape c)).length,
      characters bound done (Bytes.ofChars (Printer.escape c) ++ rest) =
        characters (bound.drop n) ((String.utf8EncodeChar c).reverse ++ done) rest := by
  rcases escape_cases c with ⟨cs, hc, hread⟩ | ⟨hc, hplain⟩
  · have hcons : Bytes.ofChars (Printer.escape c) = ('\\' : UInt8) :: Bytes.ofChars cs :=
      hc ▸ rfl
    rw [hcons] at hbound ⊢
    obtain ⟨_, bound, rfl⟩ := List.exists_cons_of_length_pos (Nat.lt_of_lt_of_le (by simp) hbound)
    refine ⟨1, by simp, (bind_ok (x := next) (a := '\\') rfl).trans ?_⟩
    exact bind_ok (hread rest)
  · have hself : Bytes.ofChars (Printer.escape c) = String.utf8EncodeChar c := by
      rw [hc, Bytes.ofChars_cons, Bytes.ofChars_nil, List.append_nil]
    rw [hself] at hbound ⊢
    exact ⟨_, Nat.le_refl _, characters_plain hplain hbound done rest⟩

theorem characters_flatMap_escape (cs : List Char) {bound : Bytes}
    (hbound : (Bytes.ofChars (cs.flatMap Printer.escape)).length < bound.length)
    (done rest : Bytes) :
    characters bound done (Bytes.ofChars (cs.flatMap Printer.escape) ++ ('"' : UInt8) :: rest) =
      .ok (done.reverse ++ Bytes.ofChars cs, rest) := by
  induction cs generalizing bound done with
  | nil =>
    rw [Bytes.ofChars_nil, List.append_nil]
    exact characters_quote (Nat.zero_lt_of_lt hbound) done rest
  | cons c cs ih =>
    rw [List.flatMap_cons, Bytes.ofChars_append] at hbound ⊢
    rw [List.length_append] at hbound
    have hle : (Bytes.ofChars (Printer.escape c)).length ≤ bound.length := by omega
    obtain ⟨n, hn, hread⟩ := characters_escape c hle done
      (Bytes.ofChars (cs.flatMap Printer.escape) ++ ('"' : UInt8) :: rest)
    rw [List.append_assoc, hread, ih (by rw [List.length_drop]; omega), Bytes.ofChars_cons]
    simp

theorem ofBytes_ofChars (s : String) (rest : Bytes) :
    ofBytes (Bytes.ofChars s.toList) rest = .ok (s, rest) := by
  rw [ofBytes, ← utf8_eq_ofChars, text?_utf8]
  rfl

/-- The inside of a written text is read back, up to its closing quote. -/
theorem text_escape (s : String) (rest : Bytes) :
    text (Bytes.ofChars (s.toList.flatMap Printer.escape) ++ ('"' : UInt8) :: rest) =
      .ok (s, rest) := by
  refine (bind_ok (x := bound) rfl).trans ?_
  refine (bind_ok (characters_flatMap_escape s.toList ?_ [] rest)).trans ?_
  · simp only [List.length_cons, List.length_append]
    omega
  · exact ofBytes_ofChars s rest

theorem text_append (s : String) (rest : Bytes) :
    Bytes.ofChars (Printer.text s) ++ rest = ('"' : UInt8) ::
      (Bytes.ofChars (s.toList.flatMap Printer.escape) ++ ('"' : UInt8) :: rest) := by
  rw [Printer.text, Bytes.ofChars_append, List.append_assoc]
  rfl

theorem textOf_print (wanted s : String) (rest : Bytes) :
    textOf wanted (Bytes.ofChars (Printer.text s) ++ rest) = .ok (s, rest) := by
  rw [text_append]
  exact text_escape s rest

theorem string_print (s : String) (rest : Bytes) :
    string (Bytes.ofChars (Printer.text s) ++ rest) = .ok (s, rest) :=
  textOf_print "a string" s rest

/-! ## Punctuation -/

section

variable (rest : Bytes)

theorem colon_cons : colon (':' :: rest) = .ok ((), rest) := rfl

theorem moreMembers_first : moreMembers true ('"' :: rest) = .ok (true, rest) := rfl

theorem moreMembers_next : moreMembers false (',' :: '"' :: rest) = .ok (true, rest) := rfl

theorem endObject_cons : endObject ('\x7d' :: rest) = .ok ((), rest) := rfl

theorem moreElements_first : moreElements true ('"' :: rest) = .ok (true, '"' :: rest) := rfl

theorem moreElements_next :
    moreElements false (',' :: '"' :: rest) = .ok (true, '"' :: rest) := rfl

theorem endArray_cons : endArray (']' :: rest) = .ok ((), rest) := rfl

theorem finish_nil : finish [] = .ok ((), []) := rfl

end

/-- A reader that leaves nothing over reads all of the bytes. -/
theorem runBytes_ok {r : Reader α} {bs : Bytes} {a : α} (h : r bs = .ok (a, [])) :
    r.runBytes bs = .ok a := by
  have hr : (r <* finish) bs = .ok (a, []) := by
    rw [seqLeft_eq_bind, bind_ok h, bind_ok finish_nil]
    rfl
  show ((r <* finish).run' bs) = _
  simp only [StateT.run']
  rw [hr]
  rfl

/-- A document is read from its characters. -/
theorem run_ofList {r : Reader α} {cs : List Char} {a : α}
    (h : r (Bytes.ofChars cs) = .ok (a, [])) : r.run (String.ofList cs) = .ok a := by
  rw [run, utf8_ofList]
  exact runBytes_ok h

/-! ## Names -/

theorem name_print {names : List (String × α)} {s : String} {a : α} (h : names.lookup s = some a)
    (rest : Bytes) : name names (Bytes.ofChars (Printer.text s) ++ rest) = .ok (a, rest) := by
  refine (bind_ok (textOf_print nameWanted s rest)).trans ?_
  rw [ofName, h]
  rfl

/-- A name that stands alone is chosen. -/
theorem choice_print {names : List (String × α)} {s : String} {a : α}
    (h : names.lookup s = some a) (rest : Bytes) :
    choice names (Bytes.ofChars (Printer.text s) ++ rest) = .ok (a, rest) := by
  have hpeek : peek .value (Bytes.ofChars (Printer.text s) ++ rest) =
      .ok ('"', Bytes.ofChars (Printer.text s) ++ rest) := by
    rw [text_append]
    rfl
  refine (bind_ok hpeek).trans ?_
  rw [if_pos rfl]
  exact name_print h rest

end AccessCache.Json.Reader
