import AccessCache.Proofs.Json.Object
import AccessCache.Proofs.Json.Reader
import Mathlib.Data.List.DropRight

/-!
# Trees

A text is read as a tree exactly where a reader that wants a text takes one (`textOf_eq_ok_iff`).
Documents that are put together from texts, arrays and objects carry the trees they are read as
(`Written`).
-/

namespace AccessCache.Json

namespace Reader

variable {α β : Type} {bs rest : Bytes}

/-! ## Values -/

theorem dispatch_eq_ok_iff {onArray onObject : Reader α} {onAtom : UInt8 → Reader α} {a : α} :
    dispatch onArray onObject onAtom bs = .ok (a, rest) ↔
      ∃ c tail, bs.dropWhile isBlank = c :: tail ∧
        if c = '[' then onArray tail = .ok (a, rest)
        else if c = '{' then onObject tail = .ok (a, rest)
        else onAtom c (c :: tail) = .ok (a, rest) := by
  rw [dispatch, peek_bind_eq_ok_iff]
  refine exists_congr fun c => exists_congr fun tail => and_congr_right fun _ => ?_
  split_ifs
  · rfl
  · rfl
  · rfl

theorem value_dropWhile (depth : Nat) (bs : Bytes) :
    value depth (bs.dropWhile isBlank) = value depth bs := by
  have hpeek (u : Unfinished) : peek u (bs.dropWhile isBlank) = peek u bs := by
    unfold peek
    rw [List.dropWhile_idempotent]
  cases depth with
  | zero =>
    show (peek _ _ >>= _) = (peek _ _ >>= _)
    rw [hpeek]
  | succ d =>
    show (peek _ _ >>= _) = (peek _ _ >>= _)
    rw [hpeek]

/-- Only a quote begins a text. -/
theorem atom_eq_text_iff {c : UInt8} {tail : Bytes} {s : String} :
    atom c (c :: tail) = .ok (.text s, rest) ↔ c = '"' ∧ text tail = .ok (s, rest) := by
  unfold atom
  split_ifs with h
  · simp only [h, true_and, seqRight_eq_ok_iff, map_eq_ok_iff, Value.text.injEq]
    constructor
    · rintro ⟨_, _, htake, _, htext, rfl⟩
      cases htake
      exact htext
    · exact fun htext => ⟨(), tail, rfl, s, htext, rfl⟩
  all_goals
    simp only [h, false_and, map_eq_ok_iff, reduceCtorEq, and_false, exists_false, refuse_ne_ok]

/-- Arrays and objects begin with their brackets, not as atoms do. -/
theorem atom_ne_container {c : UInt8} {v : Value} (h : atom c bs = .ok (v, rest)) :
    (∀ vs, v ≠ .array vs) ∧ ∀ ms, v ≠ .object ms := by
  unfold atom at h
  split_ifs at h
  · obtain ⟨_, _, _, h⟩ := seqRight_eq_ok_iff.mp h
    obtain ⟨_, _, rfl⟩ := map_eq_ok_iff.mp h
    exact ⟨nofun, nofun⟩
  · obtain ⟨_, _, rfl⟩ := map_eq_ok_iff.mp h
    exact ⟨nofun, nofun⟩
  · obtain ⟨_, _, rfl⟩ := map_eq_ok_iff.mp h
    exact ⟨nofun, nofun⟩
  · obtain ⟨_, _, rfl⟩ := map_eq_ok_iff.mp h
    exact ⟨nofun, nofun⟩
  · obtain ⟨_, _, rfl⟩ := map_eq_ok_iff.mp h
    exact ⟨nofun, nofun⟩
  · exact (refuse_ne_ok h).elim

theorem value_eq_array_iff {depth : Nat} {vs : List Value} :
    value (depth + 1) bs = .ok (.array vs, rest) ↔
      ∃ tail, bs.dropWhile isBlank = ('[' : UInt8) :: tail ∧
        items (value depth) tail = .ok (vs, rest) := by
  rw [value, dispatch_eq_ok_iff]
  constructor
  · rintro ⟨c, tail, hdrop, h⟩
    split_ifs at h with harray
    · obtain ⟨_, hitems, h⟩ := map_eq_ok_iff.mp h
      cases h
      exact ⟨tail, harray ▸ hdrop, hitems⟩
    · obtain ⟨_, _, h⟩ := map_eq_ok_iff.mp h
      exact nomatch h
    · exact absurd rfl ((atom_ne_container h).1 vs)
  · rintro ⟨tail, hdrop, hitems⟩
    exact ⟨'[', tail, hdrop, map_eq_ok_iff.mpr ⟨vs, hitems, rfl⟩⟩

theorem value_eq_object_iff {depth : Nat} {ms : List (String × Value)} :
    value (depth + 1) bs = .ok (.object ms, rest) ↔
      ∃ tail, bs.dropWhile isBlank = ('{' : UInt8) :: tail ∧
        namedMembers (value depth) tail = .ok (ms, rest) := by
  rw [value, dispatch_eq_ok_iff]
  constructor
  · rintro ⟨c, tail, hdrop, h⟩
    split_ifs at h with _ hobject
    · obtain ⟨_, _, h⟩ := map_eq_ok_iff.mp h
      exact nomatch h
    · obtain ⟨_, hmembers, h⟩ := map_eq_ok_iff.mp h
      cases h
      exact ⟨tail, hobject ▸ hdrop, hmembers⟩
    · exact absurd rfl ((atom_ne_container h).2 ms)
  · rintro ⟨tail, hdrop, hmembers⟩
    exact ⟨'{', tail, hdrop, map_eq_ok_iff.mpr ⟨ms, hmembers, rfl⟩⟩

theorem value_eq_text_iff {depth : Nat} {s : String} :
    value depth bs = .ok (.text s, rest) ↔
      ∃ tail, bs.dropWhile isBlank = ('"' : UInt8) :: tail ∧ text tail = .ok (s, rest) := by
  cases depth with
  | zero =>
    rw [value, peek_bind_eq_ok_iff]
    constructor
    · rintro ⟨c, tail, hdrop, h⟩
      split_ifs at h
      · exact (refuse_ne_ok h).elim
      · obtain ⟨rfl, htext⟩ := atom_eq_text_iff.mp h
        exact ⟨tail, hdrop, htext⟩
    · rintro ⟨tail, hdrop, htext⟩
      exact ⟨'"', tail, hdrop, atom_eq_text_iff.mpr ⟨rfl, htext⟩⟩
  | succ d =>
    rw [value, dispatch_eq_ok_iff]
    constructor
    · rintro ⟨c, tail, hdrop, h⟩
      split_ifs at h
      · obtain ⟨_, _, h⟩ := map_eq_ok_iff.mp h
        exact nomatch h
      · obtain ⟨_, _, h⟩ := map_eq_ok_iff.mp h
        exact nomatch h
      · obtain ⟨rfl, htext⟩ := atom_eq_text_iff.mp h
        exact ⟨tail, hdrop, htext⟩
    · rintro ⟨tail, hdrop, htext⟩
      exact ⟨'"', tail, hdrop, atom_eq_text_iff.mpr ⟨rfl, htext⟩⟩

/-- Reading a text as such takes what reading it as a tree takes. -/
theorem textOf_eq_ok_iff (depth : Nat) {wanted s : String} :
    textOf wanted bs = .ok (s, rest) ↔ value depth bs = .ok (.text s, rest) := by
  rw [value_eq_text_iff, textOf, peek_bind_eq_ok_iff]
  constructor
  · rintro ⟨c, tail, hdrop, h⟩
    split_ifs at h with hc
    · subst hc
      obtain ⟨_, _, htake, htext⟩ := seqRight_eq_ok_iff.mp h
      cases htake
      exact ⟨tail, hdrop, htext⟩
    · exact (unexpected_ne_ok h).elim
  · rintro ⟨tail, hdrop, htext⟩
    exact ⟨'"', tail, hdrop, seqRight_eq_ok_iff.mpr ⟨(), tail, rfl, htext⟩⟩

/-- A text takes its closing quote at least. -/
theorem length_lt_of_value_text {depth : Nat} {s : String}
    (h : value depth bs = .ok (.text s, rest)) : rest.length < bs.length := by
  obtain ⟨tail, hdrop, htext⟩ := value_eq_text_iff.mp h
  have hle : (('"' : UInt8) :: tail).length ≤ bs.length :=
    (hdrop ▸ List.dropWhile_suffix _).length_le
  have htaken := (takes_text htext).length_le
  rw [List.length_cons] at hle
  omega

/-- Blanks in front of a value do not matter, and no closing bracket begins one. -/
theorem exists_head_of_value {depth : Nat} {v : Value} (h : value depth bs = .ok (v, rest)) :
    ∃ c tail, bs.dropWhile isBlank = c :: tail ∧ c ≠ ']' ∧
      value depth (c :: tail) = .ok (v, rest) := by
  have hhead : ∃ c tail, bs.dropWhile isBlank = c :: tail ∧ c ≠ ']' := by
    have hatom (tail : Bytes) : atom ']' (']' :: tail) ≠ .ok (v, rest) := refuse_ne_ok
    cases depth with
    | zero =>
      obtain ⟨c, tail, hdrop, h⟩ := peek_bind_eq_ok_iff.mp h
      refine ⟨c, tail, hdrop, ?_⟩
      rintro rfl
      exact hatom tail h
    | succ d =>
      obtain ⟨c, tail, hdrop, h⟩ := dispatch_eq_ok_iff.mp h
      refine ⟨c, tail, hdrop, ?_⟩
      rintro rfl
      exact hatom tail h
  obtain ⟨c, tail, hdrop, hc⟩ := hhead
  refine ⟨c, tail, hdrop, hc, ?_⟩
  rw [← hdrop, value_dropWhile]
  exact h

/-- A text is a document if only blanks follow what is read of it. -/
theorem run_eq_ok_iff {r : Reader α} {s : String} {a : α} :
    r.run s = .ok a ↔ ∃ rest, r (utf8 s) = .ok (a, rest) ∧ finish rest = .ok ((), []) := by
  have hrun : r.run s = .ok a ↔ ∃ rest, (r <* finish) (utf8 s) = .ok (a, rest) := by
    show Prod.fst <$> (r <* finish) (utf8 s) = _ ↔ _
    cases (r <* finish) (utf8 s) with
    | error e => simp
    | ok p => simp [Prod.ext_iff]
  rw [hrun]
  simp only [seqLeft_eq_bind, bind_eq_ok_iff]
  constructor
  · rintro ⟨_, a', mid, ha, _, end_, hend, h⟩
    cases pure_eq_ok_iff.mp h
    refine ⟨mid, ha, ?_⟩
    unfold finish at hend ⊢
    split at hend
    · rfl
    · exact (refuse_ne_ok hend).elim
  · rintro ⟨rest, ha, hend⟩
    exact ⟨[], a, rest, ha, (), [], hend, pure_eq_ok_iff.mpr rfl⟩

/-! ## Members -/

/-- A member that is kept: its name and its value, put in front of those read before. -/
def keep (item : Reader α) (done : List (String × α)) (k : String) :
    Reader (List (String × α)) := do
  colon
  let v ← item
  pure ((k, v) :: done)

theorem namedMembers_eq (item : Reader α) :
    namedMembers item = List.reverse <$> object text (keep item) [] := rfl

theorem keep_eq_ok_iff {item : Reader α} {done done' : List (String × α)} {k : String} :
    keep item done k bs = .ok (done', rest) ↔ ∃ v mid, colon bs = .ok ((), mid) ∧
      item mid = .ok (v, rest) ∧ done' = (k, v) :: done := by
  simp only [keep, bind_eq_ok_iff]
  constructor
  · rintro ⟨⟨⟩, mid, hcolon, v, _, hitem, h⟩
    cases pure_eq_ok_iff.mp h
    exact ⟨v, mid, hcolon, hitem, rfl⟩
  · rintro ⟨v, mid, hcolon, hitem, rfl⟩
    exact ⟨(), mid, hcolon, v, rest, hitem, pure_eq_ok_iff.mpr rfl⟩

theorem namedMembers_eq_ok_iff {item : Reader α} {ms : List (String × α)} :
    namedMembers item bs = .ok (ms, rest) ↔ ∃ mid,
      members text (keep item) (' ' :: bs) true [] bs = .ok (ms.reverse, mid) ∧
        endObject mid = .ok ((), rest) := by
  rw [namedMembers_eq, map_eq_ok_iff]
  simp only [object_eq_ok_iff]
  constructor
  · rintro ⟨done, ⟨mid, hmembers, hend⟩, rfl⟩
    exact ⟨mid, by rwa [List.reverse_reverse], hend⟩
  · rintro ⟨mid, hmembers, hend⟩
    exact ⟨_, ⟨mid, hmembers, hend⟩, by rw [List.reverse_reverse]⟩

theorem items_eq_ok_iff {item : Reader α} {vs : List α} :
    items item bs = .ok (vs, rest) ↔ ∃ mid,
      elements (fun done => (· :: done) <$> item) (' ' :: bs) true [] bs = .ok (vs.reverse, mid) ∧
        endArray mid = .ok ((), rest) := by
  rw [items, map_eq_ok_iff]
  simp only [array_eq_ok_iff]
  constructor
  · rintro ⟨done, ⟨mid, helements, hend⟩, rfl⟩
    exact ⟨mid, by rwa [List.reverse_reverse], hend⟩
  · rintro ⟨mid, helements, hend⟩
    exact ⟨_, ⟨mid, helements, hend⟩, by rw [List.reverse_reverse]⟩

/-- The elements read before stay behind those that are read. -/
theorem elements_append_iff {item : Reader α} {bound : Bytes} {first : Bool}
    {done out : List α} :
    elements (fun done => (· :: done) <$> item) bound first done bs = .ok (out, rest) ↔
      ∃ new, elements (fun done => (· :: done) <$> item) bound first [] bs = .ok (new, rest) ∧
        out = new ++ done := by
  constructor
  · intro h
    refine elements_sim (R := fun s t => s = t ++ done) h rfl ?_
    rintro _ t bs _ rest rfl hitem
    obtain ⟨a, ha, rfl⟩ := map_eq_ok_iff.mp hitem
    exact ⟨a :: t, map_eq_ok_iff.mpr ⟨a, ha, rfl⟩, rfl⟩
  · rintro ⟨new, h, rfl⟩
    have hsim : ∃ out, elements (fun done => (· :: done) <$> item) bound first done bs =
        .ok (out, rest) ∧ out = new ++ done := by
      refine elements_sim (R := fun s t => t = s ++ done) h rfl ?_
      rintro s _ bs _ rest rfl hitem
      obtain ⟨a, ha, rfl⟩ := map_eq_ok_iff.mp hitem
      exact ⟨a :: (s ++ done), map_eq_ok_iff.mpr ⟨a, ha, rfl⟩, rfl⟩
    obtain ⟨_, hout, rfl⟩ := hsim
    exact hout

end Reader

/-! ## Written documents -/

/-- A document and the tree that it is read as, whatever follows it. -/
structure Written (depth : Nat) where
  document : List Char
  value : Value
  reads (rest : Bytes) :
    Reader.value depth (Bytes.ofChars document ++ rest) = .ok (value, rest)

namespace Written

open Reader

variable {depth : Nat}

/-- A text is a tree at any depth. -/
def text (s : String) : Written depth where
  document := Printer.text s
  value := .text s
  reads rest := by
    rw [text_append]
    exact value_eq_text_iff.mpr ⟨_, rfl, text_escape s rest⟩

/-! ### Arrays -/

theorem array_cons (w : Written depth) (ws : List (Written depth)) (rest : Bytes) :
    Bytes.ofChars (Printer.array ((w :: ws).map document)) ++ rest =
      ('[' : UInt8) :: (Bytes.ofChars w.document ++ further ']' (ws.map document) rest) := by
  rw [← intercalate_further, Printer.array, Bytes.ofChars_append, List.append_assoc]
  rfl

/-- The element that comes next, whatever blanks its document begins with. -/
theorem exists_element (w : Written depth) (rest : Bytes) :
    ∃ mid, moreElements true (Bytes.ofChars w.document ++ rest) = .ok (true, mid) ∧
      moreElements false (',' :: (Bytes.ofChars w.document ++ rest)) = .ok (true, mid) ∧
      Reader.value depth mid = .ok (w.value, rest) := by
  obtain ⟨c, tail, hdrop, hc, hvalue⟩ := exists_head_of_value (w.reads rest)
  have hpeek (u : Unfinished) :
      peek u (Bytes.ofChars w.document ++ rest) = .ok (c, c :: tail) :=
    peek_eq_ok_iff.mpr ⟨tail, hdrop, rfl⟩
  refine ⟨c :: tail, ?_, ?_, hvalue⟩
  · refine (bind_ok (hpeek _)).trans ?_
    rw [if_neg hc]
    rfl
  · refine (bind_ok (x := peek .array) (a := ',') rfl).trans ?_
    refine (bind_ok (x := take) (a := ()) rfl).trans ?_
    refine (bind_ok (hpeek _)).trans ?_
    rw [if_neg hc]
    rfl

theorem elements_further (ws : List (Written depth)) (bound : Bytes) (done : List Value)
    (rest : Bytes) (h : ws.length < bound.length) :
    elements (fun done => (· :: done) <$> Reader.value depth) bound false done
      (further ']' (ws.map document) rest) =
        .ok ((ws.map value).reverse ++ done, ']' :: rest) := by
  induction ws generalizing bound done with
  | nil =>
    obtain ⟨b, bound, rfl⟩ := List.exists_cons_of_length_pos (by omega : 0 < bound.length)
    rfl
  | cons w ws ih =>
    obtain ⟨b, bound, rfl⟩ := List.exists_cons_of_length_pos (by omega : 0 < bound.length)
    obtain ⟨mid, -, hmore, hvalue⟩ := w.exists_element (further ']' (ws.map document) rest)
    refine (bind_ok hmore).trans ?_
    refine (bind_ok (map_ok hvalue)).trans ?_
    rw [ih bound (w.value :: done) (by simpa using h)]
    simp

/-- The elements of an array are read in order. -/
theorem reads_array (ws : List (Written depth)) (rest : Bytes) :
    Reader.value (depth + 1) (Bytes.ofChars (Printer.array (ws.map document)) ++ rest) =
      .ok (.array (ws.map value), rest) := by
  cases ws with
  | nil => rfl
  | cons w ws =>
    let front := Bytes.ofChars w.document
    let behind := further ']' (ws.map document) rest
    obtain ⟨mid, hmore, -, hvalue⟩ := w.exists_element behind
    have hlen : ws.length < (front ++ behind).length := by
      have hbehind : (ws.map document).length < behind.length := length_lt_further ']' _ rest
      rw [List.length_map] at hbehind
      rw [List.length_append]
      omega
    have helements : elements (fun done => (· :: done) <$> Reader.value depth)
        (' ' :: (front ++ behind)) true [] (front ++ behind) =
          .ok ((ws.map value).reverse ++ [w.value], ']' :: rest) :=
      ((bind_ok hmore).trans (bind_ok (map_ok hvalue))).trans (elements_further ws _ _ rest hlen)
    rw [array_cons]
    refine value_eq_array_iff.mpr ⟨_, rfl, items_eq_ok_iff.mpr ⟨_, ?_, endArray_cons rest⟩⟩
    rw [helements, List.map_cons, List.reverse_cons]

/-- An array of documents is read one level further in. -/
def array (ws : List (Written depth)) : Written (depth + 1) where
  document := Printer.array (ws.map document)
  value := .array (ws.map value)
  reads := reads_array ws

/-! ### Objects -/

/-- A member as its name and its document. -/
def entry (m : String × Written depth) : String × List Char := (m.1, m.2.document)

/-- Members are kept, the last one in front. -/
theorem fills (ms : List (String × Written depth)) (done : List (String × Value)) :
    Fills (keep (Reader.value depth)) (ms.map entry) done
      ((ms.map fun m => (m.1, m.2.value)).reverse ++ done) := by
  induction ms generalizing done with
  | nil => exact .nil
  | cons m ms ih =>
    have h := ih ((m.1, m.2.value) :: done)
    rw [List.map_cons, List.map_cons, List.reverse_cons, List.append_assoc]
    refine .cons _ (fun rest _ => ?_) h
    exact (bind_ok (colon_cons _)).trans (bind_ok (m.2.reads rest))

/-- The members of an object are read in order, whatever their names. -/
theorem reads_object (ms : List (String × Written depth)) (rest : Bytes) :
    Reader.value (depth + 1) (Bytes.ofChars (Printer.object (ms.map entry)) ++ rest) =
      .ok (.object (ms.map fun m => (m.1, m.2.value)), rest) := by
  obtain ⟨inside, hprint, hobject⟩ := object_print (fills ms []) rest
  rw [hprint]
  refine value_eq_object_iff.mpr ⟨inside, rfl, ?_⟩
  rw [namedMembers_eq, map_ok hobject, List.append_nil, List.reverse_reverse]

/-- An object of documents is read one level further in. -/
def object (ms : List (String × Written depth)) : Written (depth + 1) where
  document := Printer.object (ms.map entry)
  value := .object (ms.map fun m => (m.1, m.2.value))
  reads := reads_object ms

/-- The document alone is a text that holds its tree. -/
theorem parse (w : Written Value.maxDepth) :
    Value.parse (String.ofList w.document) = .ok w.value := by
  have h := w.reads []
  rw [List.append_nil] at h
  exact run_ofList h

end Written

end AccessCache.Json
