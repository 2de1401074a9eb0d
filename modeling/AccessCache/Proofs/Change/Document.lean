import AccessCache.Proofs.Change.Content
import AccessCache.Proofs.Json.Value

/-!
# Reading changes

A change is read from exactly the texts whose tree describes or lists it, and so from what is
written for it (`read_exact`). The tag is read where it stands and the other members are kept; that
loop stays in step with the one that reads the whole tree, as long as a tag is among the members
once (`taggedObject_eq_ok_iff`).
-/

namespace AccessCache.Change

open Json Json.Reader

/-! ## Tags -/

theorem ofName_eq_ok_iff {s : String} {t : Tag} : ofName tagNames s = .ok t ↔ s = t.name := by
  constructor
  · intro h
    unfold ofName at h
    split at h
    · next t' hlookup =>
      cases h
      obtain ⟨l, l', hl, -⟩ := List.lookup_eq_some_iff.mp hlookup
      have hmem : (s, t) ∈ tagNames := hl ▸ by simp
      obtain ⟨t', -, ht'⟩ := List.mem_map.mp hmem
      cases ht'
      rfl
    · exact nomatch h
  · rintro rfl
    cases t <;> rfl

theorem Tag.name_inj {t t' : Tag} (h : t.name = t'.name) : t = t' :=
  Except.ok.inj ((ofName_eq_ok_iff.mpr rfl).symm.trans (ofName_eq_ok_iff.mpr h))

section

variable {bs rest : Bytes} {t : Tag}

theorem check_eq_ok_iff {α : Type} {x : Except Mismatch α} {a : α} :
    check x bs = .ok (a, rest) ↔ x = .ok a ∧ rest = bs := by
  cases x with
  | error m => simp [check]
  | ok b =>
    show (pure b : Reader α) bs = _ ↔ _
    rw [pure_eq_ok_iff]
    simp [eq_comm]

/-- A tag is read where the text of its name stands. -/
theorem tagReader_eq_ok_iff (depth : Nat) :
    tagReader bs = .ok (t, rest) ↔ Reader.value depth bs = .ok (.text t.name, rest) := by
  rw [tagReader, Reader.name, bind_eq_ok_iff]
  constructor
  · rintro ⟨s, mid, htext, hcheck⟩
    obtain ⟨hname, rfl⟩ := check_eq_ok_iff.mp hcheck
    rw [← ofName_eq_ok_iff.mp hname]
    exact (textOf_eq_ok_iff depth).mp htext
  · intro h
    exact ⟨t.name, rest, (textOf_eq_ok_iff depth).mpr h,
      check_eq_ok_iff.mpr ⟨ofName_eq_ok_iff.mpr rfl, rfl⟩⟩

/-! ### In an object -/

/-- The tag that has been read and the members kept for later are those of the members read. -/
def Apart (done : List (String × Value)) (s : Option Tag × List (String × Value)) : Prop :=
  valuesOf done "event" = s.1.toList.map (fun t => .text t.name) ∧
    s.2 = done.filter (·.1 ≠ "event")

/-- The tag is read once. -/
theorem taggedMember_event {o : Option Tag} {kept : List (String × Value)}
    {s' : Option Tag × List (String × Value)} :
    taggedMember (o, kept) "event" bs = .ok (s', rest) ↔
      o = none ∧ ∃ t mid, colon bs = .ok ((), mid) ∧
        Reader.value innerDepth mid = .ok (.text t.name, rest) ∧ s' = (some t, kept) := by
  cases o with
  | some t =>
    refine iff_of_false (fun h => ?_) fun h => nomatch h.1
    obtain ⟨_, _, h, _⟩ := bind_eq_ok_iff.mp h
    exact mismatchIn_ne_ok h
  | none =>
    have hmember : taggedMember (none, kept) "event" =
        (colon >>= fun _ => tagReader >>= fun t => pure (some t, kept)) := rfl
    simp only [hmember, bind_eq_ok_iff, true_and]
    constructor
    · rintro ⟨⟨⟩, mid, hcolon, t, _, htag, h⟩
      cases pure_eq_ok_iff.mp h
      exact ⟨t, mid, hcolon, (tagReader_eq_ok_iff _).mp htag, rfl⟩
    · rintro ⟨t, mid, hcolon, htag, rfl⟩
      exact ⟨(), mid, hcolon, t, rest, (tagReader_eq_ok_iff _).mpr htag, pure_eq_ok_iff.mpr rfl⟩

theorem taggedMember_other {o : Option Tag} {kept : List (String × Value)} {k : String}
    {s' : Option Tag × List (String × Value)} (hk : k ≠ "event") :
    taggedMember (o, kept) k bs = .ok (s', rest) ↔ ∃ v mid, colon bs = .ok ((), mid) ∧
      Reader.value innerDepth mid = .ok (v, rest) ∧ s' = (o, (k, v) :: kept) := by
  have hmember : taggedMember (o, kept) k =
      (colon >>= fun _ => Reader.value innerDepth >>= fun v => pure (o, (k, v) :: kept)) :=
    if_neg hk
  simp only [hmember, bind_eq_ok_iff]
  constructor
  · rintro ⟨⟨⟩, mid, hcolon, v, _, hv, h⟩
    cases pure_eq_ok_iff.mp h
    exact ⟨v, mid, hcolon, hv, rfl⟩
  · rintro ⟨v, mid, hcolon, hv, rfl⟩
    exact ⟨(), mid, hcolon, v, rest, hv, pure_eq_ok_iff.mpr rfl⟩

theorem apart_nil : Apart [] (none, []) := ⟨rfl, by simp⟩

/-- A member that is read apart could have been kept. -/
theorem apart_of_tagged {s s' : Option Tag × List (String × Value)} {k : String}
    {done : List (String × Value)} (hR : Apart done s) (h : taggedMember s k bs = .ok (s', rest)) :
    ∃ done', keep (Reader.value innerDepth) done k bs = .ok (done', rest) ∧ Apart done' s' := by
  obtain ⟨o, kept⟩ := s
  obtain ⟨htag, hkept⟩ := hR
  by_cases hk : k = "event"
  · subst hk
    obtain ⟨rfl, t, mid, hcolon, hv, rfl⟩ := taggedMember_event.mp h
    refine ⟨_, keep_eq_ok_iff.mpr ⟨_, mid, hcolon, hv, rfl⟩, ?_, ?_⟩
    · rw [valuesOf_cons, htag, if_pos rfl]
      rfl
    · simpa using hkept
  · obtain ⟨v, mid, hcolon, hv, rfl⟩ := (taggedMember_other hk).mp h
    refine ⟨_, keep_eq_ok_iff.mpr ⟨_, mid, hcolon, hv, rfl⟩, ?_, ?_⟩
    · rw [valuesOf_cons, if_neg hk]
      exact htag
    · simpa [hk] using hkept

/-- At most one of the members is the tag, and names one. -/
def Single (done : List (String × Value)) : Prop :=
  ∃ o : Option Tag, valuesOf done "event" = o.toList.map fun t => .text t.name

/-- A member that is kept could have been read apart, if a tag is among the members only once. -/
theorem tagged_of_keep {done done' : List (String × Value)} {k : String}
    (h : keep (Reader.value innerDepth) done k bs = .ok (done', rest)) (hsingle : Single done') :
    Single done ∧ ∀ s, Apart done s →
      ∃ s', taggedMember s k bs = .ok (s', rest) ∧ Apart done' s' := by
  obtain ⟨v, mid, hcolon, hv, rfl⟩ := keep_eq_ok_iff.mp h
  obtain ⟨o', ho'⟩ := hsingle
  rw [valuesOf_cons] at ho'
  by_cases hk : k = "event"
  · subst hk
    rw [if_pos rfl] at ho'
    obtain ⟨t, rfl⟩ : ∃ t, o' = some t := by
      cases o' with
      | none => exact nomatch ho'
      | some t => exact ⟨t, rfl⟩
    -- This member is the tag, so that there is none among those before it.
    simp only [Option.toList_some, List.map_cons, List.map_nil, List.singleton_append,
      List.cons.injEq] at ho'
    obtain ⟨rfl, hnone⟩ := ho'
    refine ⟨⟨none, hnone⟩, ?_⟩
    rintro ⟨o, kept⟩ ⟨htag, hkept⟩
    obtain rfl : o = none := by
      cases o with
      | none => rfl
      | some t => exact nomatch hnone.symm.trans htag
    refine ⟨_, taggedMember_event.mpr ⟨rfl, t, mid, hcolon, hv, rfl⟩, ?_, ?_⟩
    · rw [valuesOf_cons, hnone, if_pos rfl]
      rfl
    · simpa using hkept
  · rw [if_neg hk] at ho'
    refine ⟨⟨o', ho'⟩, ?_⟩
    rintro ⟨o, kept⟩ ⟨htag, hkept⟩
    refine ⟨_, (taggedMember_other hk).mpr ⟨v, mid, hcolon, hv, rfl⟩, ?_, ?_⟩
    · rw [valuesOf_cons, if_neg hk]
      exact htag
    · simpa [hk] using hkept

theorem valuesOf_reverse (ms : List (String × Value)) (name : String) :
    valuesOf ms.reverse name = (valuesOf ms name).reverse := by
  simp [valuesOf, List.filter_reverse, List.map_reverse]

/-- A tag is found in an object where it is the value of one member. The others are kept. -/
theorem taggedObject_eq_ok_iff {content : Content} :
    taggedObject bs = .ok ((t, content), rest) ↔
      ∃ ms, namedMembers (Reader.value innerDepth) bs = .ok (ms, rest) ∧
        valuesOf ms "event" = [.text t.name] ∧
        content = .object (ms.filter (·.1 ≠ "event")) := by
  rw [taggedObject, bind_eq_ok_iff]
  constructor
  · rintro ⟨⟨o, kept⟩, mid, hobject, h⟩
    cases o with
    | none => exact (mismatch_ne_ok h).elim
    | some t' =>
      cases pure_eq_ok_iff.mp h
      obtain ⟨end_, hmembers, hend⟩ := object_eq_ok_iff.mp hobject
      obtain ⟨done, hdone, htag, hkept⟩ := (members_sim (P := fun _ => True)
        (R := fun s done => Apart done s) hmembers trivial
        fun _ _ _ _ _ h _ => ⟨trivial, fun _ hR => apart_of_tagged hR h⟩).2 [] apart_nil
      refine ⟨done.reverse, namedMembers_eq_ok_iff.mpr ⟨end_, ?_, hend⟩, ?_, ?_⟩
      · rwa [List.reverse_reverse]
      · rw [valuesOf_reverse, htag]
        rfl
      · simp only at hkept
        rw [hkept, List.filter_reverse]
  · rintro ⟨ms, hmembers, htag, rfl⟩
    obtain ⟨end_, hmembers, hend⟩ := namedMembers_eq_ok_iff.mp hmembers
    have hsingle : Single ms.reverse := by
      refine ⟨some t, ?_⟩
      rw [valuesOf_reverse, htag]
      rfl
    obtain ⟨⟨o, kept⟩, hs, ho, hkept⟩ := (members_sim (R := Apart) hmembers hsingle
      fun _ _ _ _ _ h hs => tagged_of_keep h hs).2 (none, []) apart_nil
    rw [valuesOf_reverse, htag] at ho
    obtain ⟨t', rfl⟩ : ∃ t', o = some t' := by
      cases o with
      | none => exact nomatch ho
      | some t' => exact ⟨t', rfl⟩
    obtain rfl : t = t' := Tag.name_inj (by simpa using ho)
    refine ⟨_, rest, object_eq_ok_iff.mpr ⟨end_, hs, hend⟩, pure_eq_ok_iff.mpr ?_⟩
    simp only at hkept
    rw [hkept, List.filter_reverse, List.reverse_reverse]

/-! ### In an array -/

theorem laterItems_eq_ok_iff {vs : List Value} :
    laterItems bs = .ok (vs, rest) ↔ ∃ mid,
      elements (fun done => (· :: done) <$> Reader.value innerDepth) (' ' :: bs) false [] bs =
        .ok (vs.reverse, mid) ∧ endArray mid = .ok ((), rest) := by
  simp only [laterItems, bind_eq_ok_iff]
  constructor
  · rintro ⟨_, _, hbound, done, mid, helements, ⟨⟩, _, hend, h⟩
    cases hbound
    cases pure_eq_ok_iff.mp h
    exact ⟨mid, by rwa [List.reverse_reverse], hend⟩
  · rintro ⟨mid, helements, hend⟩
    refine ⟨_, _, rfl, vs.reverse, mid, helements, (), rest, hend, pure_eq_ok_iff.mpr ?_⟩
    rw [List.reverse_reverse]

/-- A tag is found in an array where it is the first element. The others are kept. -/
theorem taggedArray_eq_ok_iff {content : Content} :
    taggedArray bs = .ok ((t, content), rest) ↔
      ∃ vs, items (Reader.value innerDepth) bs = .ok (.text t.name :: vs, rest) ∧
        content = .array vs := by
  have hitem (done : List Value) : Takes ((· :: done) <$> Reader.value innerDepth) :=
    (takes_value innerDepth).map _
  constructor
  · intro h
    obtain ⟨more, mid, hmore, h⟩ := bind_eq_ok_iff.mp h
    cases more with
    | false =>
      obtain ⟨_, _, h, _⟩ := bind_eq_ok_iff.mp h
      exact (mismatchIn_ne_ok h).elim
    | true =>
      obtain ⟨t', mid₁, htag, h⟩ := bind_eq_ok_iff.mp h
      obtain ⟨vs, mid₂, hlater, h⟩ := bind_eq_ok_iff.mp h
      cases pure_eq_ok_iff.mp h
      rw [tagReader_eq_ok_iff innerDepth] at htag
      obtain ⟨end_, helements, hend⟩ := laterItems_eq_ok_iff.mp hlater
      have hlen : mid₁.length < bs.length :=
        (length_lt_of_value_text htag).trans_le (takes_moreElements _ hmore).length_le
      refine ⟨vs, items_eq_ok_iff.mpr ⟨end_, ?_, hend⟩, rfl⟩
      refine bind_eq_ok_iff.mpr ⟨true, mid, hmore, bind_eq_ok_iff.mpr ⟨[.text t.name], mid₁,
        map_eq_ok_iff.mpr ⟨_, htag, rfl⟩, ?_⟩⟩
      -- The two loops have different bounds, and both are long enough.
      refine elements_append_iff.mpr ⟨vs.reverse, elements_of_bound hitem helements hlen, ?_⟩
      rw [List.reverse_cons]
  · rintro ⟨vs, hitems, rfl⟩
    obtain ⟨end_, helements, hend⟩ := items_eq_ok_iff.mp hitems
    obtain ⟨more, mid, hmore, h⟩ := bind_eq_ok_iff.mp helements
    cases more with
    | false =>
      have hnil := pure_eq_ok_iff.mp h
      simp at hnil
    | true =>
      obtain ⟨_, mid₁, hfirst, h⟩ := bind_eq_ok_iff.mp h
      obtain ⟨v, hv, rfl⟩ := map_eq_ok_iff.mp hfirst
      obtain ⟨new, helements, hnew⟩ := elements_append_iff.mp h
      rw [List.reverse_cons] at hnew
      obtain ⟨rfl, hv'⟩ := List.append_inj' hnew rfl
      cases hv'
      refine bind_eq_ok_iff.mpr ⟨true, mid, hmore, bind_eq_ok_iff.mpr ⟨t, mid₁,
        (tagReader_eq_ok_iff innerDepth).mpr hv, bind_eq_ok_iff.mpr ⟨vs, rest, ?_, rfl⟩⟩⟩
      refine laterItems_eq_ok_iff.mpr ⟨end_, ?_, hend⟩
      exact elements_of_bound hitem helements (by simp)

end

/-! ## Reading -/

section

variable {bs rest : Bytes} {c : Change}

theorem Field.name_ne_event (f : Field) : f.name ≠ "event" := by
  cases f <;> decide

/-- The members beside the tag have the same values for the fields. -/
theorem valuesOf_filter_event (ms : List (String × Value)) (f : Field) :
    valuesOf (ms.filter (·.1 ≠ "event")) f.name = valuesOf ms f.name := by
  rw [valuesOf, valuesOf, List.filter_filter]
  congr 2
  funext m
  have := f.name_ne_event
  grind

theorem describes_iff {ms : List (String × Value)} :
    Describes ms c ↔ valuesOf ms "event" = [.text c.tag.name] ∧
      ofContent c.tag (.object (ms.filter (·.1 ≠ "event"))) = .ok c := by
  simp only [ofContent_object_eq_ok_iff, valuesOf_filter_event, true_and]
  exact ⟨fun h => ⟨h.tag, h.fields⟩, fun h => ⟨h.1, h.2⟩⟩

theorem lists_iff {items : List Value} :
    Lists items c ↔ ∃ vs, items = .text c.tag.name :: vs ∧ ofContent c.tag (.array vs) = .ok c := by
  simp only [ofContent_array_eq_ok_iff, true_and]
  constructor
  · intro h
    obtain ⟨vs, rfl⟩ : ∃ vs, items = .text c.tag.name :: vs := by
      rcases h with h | ⟨g, -, h⟩
      · exact ⟨_, h⟩
      · exact ⟨_, h⟩
    exact ⟨vs, rfl, h⟩
  · rintro ⟨vs, rfl, h⟩
    exact h

theorem tag_of_ofContent {t : Tag} {content : Content} (h : ofContent t content = .ok c) :
    c.tag = t := by
  cases content with
  | object ms => exact (ofContent_object_eq_ok_iff.mp h).1
  | array items => exact (ofContent_array_eq_ok_iff.mp h).1

/-- A change is read where a tree that says what it is would be. -/
theorem reader_eq_ok_iff : reader bs = .ok (c, rest) ↔
    (∃ ms, Reader.value Value.maxDepth bs = .ok (.object ms, rest) ∧ Describes ms c) ∨
      ∃ items, Reader.value Value.maxDepth bs = .ok (.array items, rest) ∧ Lists items c := by
  rw [show Value.maxDepth = innerDepth + 1 from rfl]
  constructor
  · intro h
    obtain ⟨⟨t, content⟩, mid, htagged, hcheck⟩ := bind_eq_ok_iff.mp h
    obtain ⟨hcontent, rfl⟩ := check_eq_ok_iff.mp hcheck
    obtain rfl := tag_of_ofContent hcontent
    obtain ⟨b, tail, hdrop, h⟩ := dispatch_eq_ok_iff.mp htagged
    split_ifs at h with harray hobject
    · obtain ⟨vs, hitems, rfl⟩ := taggedArray_eq_ok_iff.mp h
      exact .inr ⟨_, value_eq_array_iff.mpr ⟨tail, harray ▸ hdrop, hitems⟩,
        lists_iff.mpr ⟨vs, rfl, hcontent⟩⟩
    · obtain ⟨ms, hmembers, htag, rfl⟩ := taggedObject_eq_ok_iff.mp h
      exact .inl ⟨ms, value_eq_object_iff.mpr ⟨tail, hobject ▸ hdrop, hmembers⟩,
        describes_iff.mpr ⟨htag, hcontent⟩⟩
    · exact (unexpected_ne_ok h).elim
  · rintro (⟨ms, hvalue, hms⟩ | ⟨items, hvalue, hitems⟩)
    · obtain ⟨tail, hdrop, hmembers⟩ := value_eq_object_iff.mp hvalue
      obtain ⟨htag, hcontent⟩ := describes_iff.mp hms
      exact bind_eq_ok_iff.mpr ⟨_, rest, dispatch_eq_ok_iff.mpr ⟨_, tail, hdrop,
        taggedObject_eq_ok_iff.mpr ⟨ms, hmembers, htag, rfl⟩⟩, check_eq_ok_iff.mpr ⟨hcontent, rfl⟩⟩
    · obtain ⟨tail, hdrop, hread⟩ := value_eq_array_iff.mp hvalue
      obtain ⟨vs, rfl, hcontent⟩ := lists_iff.mp hitems
      exact bind_eq_ok_iff.mpr ⟨_, rest, dispatch_eq_ok_iff.mpr ⟨_, tail, hdrop,
        taggedArray_eq_ok_iff.mpr ⟨vs, hread, rfl⟩⟩, check_eq_ok_iff.mpr ⟨hcontent, rfl⟩⟩

theorem read_eq_ok_iff {s : String} : read s = .ok c ↔
    (∃ ms, Value.parse s = .ok (.object ms) ∧ Describes ms c) ∨
      ∃ items, Value.parse s = .ok (.array items) ∧ Lists items c := by
  simp only [read, Value.parse, run_eq_ok_iff, reader_eq_ok_iff]
  constructor
  · rintro ⟨rest, ⟨ms, hv, hms⟩ | ⟨items, hv, hitems⟩, hend⟩
    · exact .inl ⟨ms, ⟨rest, hv, hend⟩, hms⟩
    · exact .inr ⟨items, ⟨rest, hv, hend⟩, hitems⟩
  · rintro (⟨ms, ⟨rest, hv, hend⟩, hms⟩ | ⟨items, ⟨rest, hv, hend⟩, hitems⟩)
    · exact ⟨rest, .inl ⟨ms, hv, hms⟩, hend⟩
    · exact ⟨rest, .inr ⟨items, hv, hitems⟩, hend⟩

end

/-! ## Written changes -/

/-- A field and its value as they are written. -/
def written (c : Change) : Field → Written innerDepth
  | .members => .array (c.members.map .text)
  | f => .text (c.text f)

theorem document_written (c : Change) (f : Field) : (c.written f).document = c.printField f := by
  cases f with
  | members =>
    show Printer.array ((c.members.map Written.text).map Written.document) = _
    rw [List.map_map]
    rfl
  | _ => rfl

theorem value_written (c : Change) (f : Field) : (c.written f).value = c.value f := by
  cases f with
  | members =>
    show Value.array ((c.members.map Written.text).map Written.value) = _
    rw [List.map_map]
    rfl
  | _ => rfl

/-- The tag and the fields of a change in an array. -/
def printItems (c : Change) : List Char :=
  Printer.array (Printer.text c.tag.name :: c.tag.fields.map c.printField)

theorem parse_print (c : Change) : Value.parse (String.ofList c.print) = .ok (.object
    (("event", .text c.tag.name) :: c.tag.fields.map fun f => (f.name, c.value f))) := by
  let w : Written (innerDepth + 1) := .object (("event", .text c.tag.name) ::
    c.tag.fields.map fun f => (f.name, c.written f))
  have hdocument : w.document = c.print := by
    simp [w, Written.object, Written.text, Written.entry, print, document_written,
      Function.comp_def]
  have hvalue : w.value = .object
      (("event", .text c.tag.name) :: c.tag.fields.map fun f => (f.name, c.value f)) := by
    simp [w, Written.object, Written.text, value_written]
  rw [← hdocument, ← hvalue]
  exact w.parse

theorem parse_printItems (c : Change) : Value.parse (String.ofList c.printItems) =
    .ok (.array (.text c.tag.name :: c.tag.fields.map c.value)) := by
  let w : Written (innerDepth + 1) := .array (.text c.tag.name :: c.tag.fields.map c.written)
  have hdocument : w.document = c.printItems := by
    simp [w, Written.array, Written.text, printItems, document_written, Function.comp_def]
  have hvalue : w.value = .array (.text c.tag.name :: c.tag.fields.map c.value) := by
    simp [w, Written.array, Written.text, value_written, Function.comp_def]
  rw [← hdocument, ← hvalue]
  exact w.parse

/-- The members that are written describe the change. -/
theorem describes_fields (c : Change) :
    Describes (("event", .text c.tag.name) :: c.tag.fields.map fun f => (f.name, c.value f)) c := by
  have hvalues (name : String) : valuesOf (c.tag.fields.map fun f => (f.name, c.value f)) name =
      (c.tag.fields.filter (·.name = name)).map c.value := by
    simp [valuesOf, List.filter_map, Function.comp_def]
  constructor
  · rw [valuesOf_cons, hvalues, List.filter_eq_nil_iff.mpr (by simp [Field.name_ne_event])]
    rfl
  · intro f hf
    refine .inl ?_
    rw [valuesOf_cons, if_neg f.name_ne_event.symm, hvalues]
    simp only [Field.name_eq_iff, List.nil_append]
    rw [List.filter_eq, List.count_eq_one_of_mem c.tag.nodup_fields hf]
    rfl

/-! ## Changes and documents -/

/-- A change is read back from its document, and from its tag and fields in an array. A text is
read as a change if it is a document whose members describe the change or whose elements list it. -/
theorem read_exact :
    (∀ c : Change, read (String.ofList c.print) = .ok c) ∧
    (∀ s c, read s = .ok c ↔
      (∃ ms, Value.parse s = .ok (.object ms) ∧ Describes ms c) ∨
        ∃ items, Value.parse s = .ok (.array items) ∧ Lists items c) ∧
    ∀ c : Change, read (String.ofList c.printItems) = .ok c :=
  ⟨fun c => read_eq_ok_iff.mpr (.inl ⟨_, c.parse_print, c.describes_fields⟩),
    fun _ _ => read_eq_ok_iff,
    fun c => read_eq_ok_iff.mpr (.inr ⟨_, c.parse_printItems, .inl rfl⟩)⟩

/-- The tag may come last, members may be left out, and what is no field of the tag is passed
over. A field that is given twice is refused, even where it says the same. -/
theorem read_exact_reordered :
    read (String.ofList (Printer.object [("role", Printer.text "admin"),
        ("group_id", Printer.text "g"), ("event", Printer.text "group_removed")])) =
      .ok (.groupRemoved ⟨"g"⟩ []) ∧
    ∀ c, read (String.ofList (Printer.object [("event", Printer.text "device_removed"),
        ("device_id", Printer.text "d"), ("device_id", Printer.text "d")])) ≠ .ok c := by
  let texts (ms : List (String × String)) : Written (innerDepth + 1) :=
    .object (ms.map fun m => (m.1, .text m.2))
  constructor
  · have hparse := Written.parse (texts [("role", "admin"), ("group_id", "g"),
      ("event", "group_removed")])
    refine (read_exact.2.1 _ _).mpr (.inl ⟨_, hparse, rfl, ?_⟩)
    simp [tag, Tag.fields, Has, valuesOf, Field.name, value, text, members, Written.text]
  · intro c h
    have hparse := Written.parse (texts [("event", "device_removed"), ("device_id", "d"),
      ("device_id", "d")])
    rcases (read_exact.2.1 _ c).mp h with ⟨ms, hms, htag, hfields⟩ | ⟨items, hitems, -⟩
    · cases hparse.symm.trans hms
      have hdevice : c.tag = .deviceRemoved := by
        have hname : [Value.text c.tag.name] = [.text Tag.deviceRemoved.name] := htag.symm
        exact Tag.name_inj (by simpa using hname)
      rcases hfields .device (by rw [hdevice]; decide) with htwice | ⟨hmembers, -⟩
      · have htwo : 2 = 1 := congrArg List.length htwice
        exact absurd htwo (by decide)
      · exact absurd hmembers (by decide)
    · cases hparse.symm.trans hitems

end AccessCache.Change
