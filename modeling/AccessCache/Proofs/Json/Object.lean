import AccessCache.Proofs.Json.Text

/-!
# Reading objects that were written

An object that was written member by member is read member by member, if each member is read as far
as it was written (`Fills`). A number ends only where something else follows it, and inside an
object something always does (`Delimited`): a comma and the next member, or the closing bracket
(`further`).
-/

namespace AccessCache.Json.Reader

variable {σ α : Type} {member : σ → String → Reader σ}

/-! ## Lists of documents -/

/-- What stands behind a document in a list, up to the closing bracket and on. -/
def further (closing : UInt8) : List (List Char) → Bytes → Bytes
  | [], rest => closing :: rest
  | doc :: docs, rest => ',' :: (Bytes.ofChars doc ++ further closing docs rest)

theorem intercalate_further (closing : UInt8) (doc : List Char) (docs : List (List Char))
    (rest : Bytes) : Bytes.ofChars ([','].intercalate (doc :: docs)) ++ closing :: rest =
      Bytes.ofChars doc ++ further closing docs rest := by
  induction docs generalizing doc with
  | nil => simp [List.intercalate, further]
  | cons doc' docs ih =>
    have h := ih doc'
    simp only [List.intercalate] at h ⊢
    rw [List.intersperse_cons_cons, List.flatten_cons, List.flatten_cons, Bytes.ofChars_append,
      Bytes.ofChars_append, List.append_assoc, List.append_assoc, h]
    rfl

theorem length_lt_further (closing : UInt8) (docs : List (List Char)) (rest : Bytes) :
    docs.length < (further closing docs rest).length := by
  induction docs with
  | nil => simp [further]
  | cons doc docs ih =>
    simp only [further, List.length_append, List.length_cons]
    omega

/-! ## Objects -/

/-- No numeral goes on here. -/
def Delimited (rest : Bytes) : Prop :=
  ∀ b ∈ rest.head?, isDigit b = false ∧ b ≠ '.' ∧ b ≠ 'e' ∧ b ≠ 'E'

theorem delimited_further (docs : List (List Char)) (rest : Bytes) :
    Delimited (further '\x7d' docs rest) := by
  cases docs with
  | nil =>
    rintro _ ⟨⟩
    decide
  | cons doc docs =>
    rintro _ ⟨⟩
    decide

/-- Members as they were written lead from `s` to `s'`. -/
inductive Fills (member : σ → String → Reader σ) : List (String × List Char) → σ → σ → Prop
  | nil {s} : Fills member [] s s
  | cons {name doc ms s s''} (s') :
      (∀ rest, Delimited rest →
        member s name (':' :: (Bytes.ofChars doc ++ rest)) = .ok (s', rest)) →
      Fills member ms s' s'' → Fills member ((name, doc) :: ms) s s''

theorem object_nil (rest : Bytes) :
    Bytes.ofChars (Printer.object []) ++ rest = ('\x7b' : UInt8) :: '\x7d' :: rest := rfl

theorem object_cons (m : String × List Char) (ms : List (String × List Char)) (rest : Bytes) :
    Bytes.ofChars (Printer.object (m :: ms)) ++ rest = ('\x7b' : UInt8) ::
      (Bytes.ofChars (Printer.member m) ++ further '\x7d' (ms.map Printer.member) rest) := by
  rw [← intercalate_further, Printer.object, Bytes.ofChars_append, List.append_assoc]
  rfl

/-- A member as it was written, taken apart. -/
theorem member_append (name : String) (doc : List Char) (rest : Bytes) :
    Bytes.ofChars (Printer.member (name, doc)) ++ rest =
      ('"' : UInt8) :: (Bytes.ofChars (name.toList.flatMap Printer.escape) ++
        ('"' : UInt8) :: ':' :: (Bytes.ofChars doc ++ rest)) := by
  rw [Printer.member, Bytes.ofChars_append, List.append_assoc, text_append]
  rfl

/-- One round of the loop over the members. -/
theorem members_cons {name : String} {doc : List Char} {bs rest : Bytes} {s s' : σ} {first : Bool}
    (hmember : member s name (':' :: (Bytes.ofChars doc ++ rest)) = .ok (s', rest))
    (hmore : moreMembers first bs = .ok (true, Bytes.ofChars (name.toList.flatMap Printer.escape) ++
      ('"' : UInt8) :: ':' :: (Bytes.ofChars doc ++ rest)))
    (b : UInt8) (bound : Bytes) :
    members text member (b :: bound) first s bs = members text member bound false s' rest :=
  (bind_ok hmore).trans ((bind_ok (text_escape name _)).trans (bind_ok hmember))

theorem members_further {ms : List (String × List Char)} {s s' : σ} (h : Fills member ms s s')
    {bound : Bytes} (hbound : ms.length < bound.length) (rest : Bytes) :
    members text member bound false s (further '\x7d' (ms.map Printer.member) rest) =
      .ok (s', '\x7d' :: rest) := by
  induction h generalizing bound with
  | nil =>
    obtain ⟨b, bound, rfl⟩ := List.exists_cons_of_length_pos (by omega : 0 < bound.length)
    rfl
  | cons _ hmember _ ih =>
    obtain ⟨b, bound, rfl⟩ := List.exists_cons_of_length_pos (by omega : 0 < bound.length)
    refine (members_cons (hmember _ (delimited_further _ _)) ?_ b bound).trans
      (ih (by simpa using hbound))
    rw [List.map_cons, further, member_append]
    exact moreMembers_next _

/-- A written object is read up to its end. -/
theorem object_print {ms : List (String × List Char)} {s s' : σ} (h : Fills member ms s s')
    (rest : Bytes) :
    ∃ inside, Bytes.ofChars (Printer.object ms) ++ rest = ('\x7b' : UInt8) :: inside ∧
      object text member s inside = .ok (s', rest) := by
  cases h with
  | nil => exact ⟨_, object_nil rest, rfl⟩
  | @cons name doc ms _ _ _ hmember hms =>
    refine ⟨_, object_cons _ _ rest, ?_⟩
    let front := Bytes.ofChars (Printer.member (name, doc))
    let behind := further '\x7d' (ms.map Printer.member) rest
    have hlen : ms.length < behind.length := by
      simpa using length_lt_further '\x7d' (ms.map Printer.member) rest
    have hmembers : members text member (' ' :: (front ++ behind)) true s (front ++ behind) =
        .ok (s', '\x7d' :: rest) := by
      refine (members_cons (hmember _ (delimited_further _ _)) ?_ ' ' _).trans
        (members_further hms ?_ rest)
      · rw [member_append]
        exact moreMembers_first _
      · rw [List.length_append]
        omega
    refine (bind_ok (x := bound) rfl).trans ?_
    refine (bind_ok hmembers).trans ?_
    exact bind_ok (endObject_cons rest)

/-! ## Records -/

/-- A record is read from an object with all of its fields. -/
theorem Shape.read_print {r : Shape σ α} {ms : List (String × List Char)} {s s' : σ} {a : α}
    (h : Fills r.member ms s s') (hfilled : r.fields.find? (fun f => !f.filled s') = none)
    (hmake : r.make s' = .ok a) (rest : Bytes) :
    r.read s (Bytes.ofChars (Printer.object ms) ++ rest) = .ok (a, rest) := by
  obtain ⟨inside, hprint, hobject⟩ := object_print h rest
  rw [hprint]
  show r.members s inside = _
  refine (bind_ok hobject).trans ?_
  rw [hfilled, hmake]
  rfl

/-- A field that was not filled yet is filled. -/
theorem Shape.member_of_field {r : Shape σ α} {s s' : σ} {name : String} {f : Field σ}
    {bs rest : Bytes} (hfind : r.fields.find? (·.name = name) = some f)
    (hfilled : f.filled s = false) (hfill : f.fill s bs = .ok (s', rest)) :
    r.member s name (':' :: bs) = .ok (s', rest) := by
  rw [Shape.member, hfind]
  simp only [hfilled]
  exact (seqRight_ok (x := colon) (colon_cons _)).trans hfill

end AccessCache.Json.Reader
