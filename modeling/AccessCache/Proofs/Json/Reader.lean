import AccessCache.Json.Record
import Mathlib.Tactic.SplitIfs

/-!
# What readers take

A reader that succeeds has taken bytes off the front of what was left (`Takes`), so that the loop
over the elements of an array, which takes a comma in each further round, never reaches a bound
longer than the document. Two loops that run over the same members with different states stay in
step as long as every round does (`members_sim`).
-/

namespace AccessCache.Json.Reader

variable {α β σ τ κ : Type}

/-! ## Success -/

section

variable {x : Reader α} {f : α → Reader β} {bs rest : Bytes} {b : β}

theorem bind_eq_ok_iff :
    (x >>= f) bs = .ok (b, rest) ↔ ∃ a mid, x bs = .ok (a, mid) ∧ f a mid = .ok (b, rest) := by
  show (x bs >>= fun r => f r.1 r.2) = _ ↔ _
  cases x bs with
  | error e => simp [bind, Except.bind]
  | ok r =>
    show f r.1 r.2 = _ ↔ _
    constructor
    · exact fun h => ⟨r.1, r.2, rfl, h⟩
    · rintro ⟨a, mid, hr, h⟩
      cases hr
      exact h

theorem pure_eq_ok_iff {a : α} {r : α × Bytes} :
    (pure a : Reader α) bs = .ok r ↔ r = (a, bs) := by
  show Except.ok (a, bs) = _ ↔ _
  simp [eq_comm]

theorem map_eq_ok_iff {g : α → β} :
    (g <$> x) bs = .ok (b, rest) ↔ ∃ a, x bs = .ok (a, rest) ∧ b = g a := by
  rw [map_eq_pure_bind, bind_eq_ok_iff]
  constructor
  · rintro ⟨a, mid, ha, h⟩
    cases pure_eq_ok_iff.mp h
    exact ⟨a, ha, rfl⟩
  · rintro ⟨a, ha, rfl⟩
    exact ⟨a, rest, ha, pure_eq_ok_iff.mpr rfl⟩

theorem seqRight_eq_ok_iff {y : Reader β} :
    (x *> y) bs = .ok (b, rest) ↔ ∃ a mid, x bs = .ok (a, mid) ∧ y mid = .ok (b, rest) := by
  rw [seqRight_eq_bind, bind_eq_ok_iff]

variable {r : α × Bytes}

@[simp] theorem fail_ne_ok {o : Obstacle} : fail o bs ≠ .ok r := nofun

@[simp] theorem refuse_ne_ok {f : Flaw} : refuse f bs ≠ .ok r := nofun

@[simp] theorem breakOff_ne_ok {u : Unfinished} : breakOff u bs ≠ .ok r := nofun

@[simp] theorem mismatch_ne_ok {m : Mismatch} : mismatch m bs ≠ .ok r := nofun

@[simp] theorem mismatchIn_ne_ok {c : UInt8} {m : Mismatch} : mismatchIn c m bs ≠ .ok r := by
  unfold mismatchIn
  split
  · exact mismatch_ne_ok
  · exact mismatch_ne_ok

@[simp] theorem unexpected_ne_ok {wanted : String} : unexpected wanted bs ≠ .ok r := by
  intro h
  obtain ⟨_, _, _, hm⟩ := bind_eq_ok_iff.mp h
  exact mismatch_ne_ok hm

end

theorem peek_eq_ok_iff {u : Unfinished} {bs rest : Bytes} {c : UInt8} :
    peek u bs = .ok (c, rest) ↔
      ∃ tail, bs.dropWhile isBlank = c :: tail ∧ rest = c :: tail := by
  unfold peek
  cases bs.dropWhile isBlank with
  | nil => simp
  | cons d tail => simp [eq_comm]; grind

/-- Looking at what comes next drops the blanks before it. -/
theorem peek_bind_eq_ok_iff {u : Unfinished} {f : UInt8 → Reader α} {bs rest : Bytes} {a : α} :
    (peek u >>= f) bs = .ok (a, rest) ↔
      ∃ c tail, bs.dropWhile isBlank = c :: tail ∧ f c (c :: tail) = .ok (a, rest) := by
  rw [bind_eq_ok_iff]
  constructor
  · rintro ⟨c, mid, hpeek, h⟩
    obtain ⟨tail, hdrop, rfl⟩ := peek_eq_ok_iff.mp hpeek
    exact ⟨c, tail, hdrop, h⟩
  · rintro ⟨c, tail, hdrop, h⟩
    exact ⟨c, c :: tail, peek_eq_ok_iff.mpr ⟨tail, hdrop, rfl⟩, h⟩

section

variable {bs rest : Bytes} {s s' : σ}

theorem array_eq_ok_iff {item : σ → Reader σ} :
    array item s bs = .ok (s', rest) ↔ ∃ mid,
      elements item (' ' :: bs) true s bs = .ok (s', mid) ∧ endArray mid = .ok ((), rest) := by
  simp only [array, bind_eq_ok_iff]
  constructor
  · rintro ⟨_, _, hbound, s₁, mid, helements, ⟨⟩, _, hend, h⟩
    cases hbound
    cases pure_eq_ok_iff.mp h
    exact ⟨mid, helements, hend⟩
  · rintro ⟨mid, helements, hend⟩
    exact ⟨_, _, rfl, s', mid, helements, (), rest, hend, pure_eq_ok_iff.mpr rfl⟩

theorem object_eq_ok_iff {key : Reader κ} {member : σ → κ → Reader σ} :
    object key member s bs = .ok (s', rest) ↔ ∃ mid,
      members key member (' ' :: bs) true s bs = .ok (s', mid) ∧
        endObject mid = .ok ((), rest) := by
  simp only [object, bind_eq_ok_iff]
  constructor
  · rintro ⟨_, _, hbound, s₁, mid, hmembers, ⟨⟩, _, hend, h⟩
    cases hbound
    cases pure_eq_ok_iff.mp h
    exact ⟨mid, hmembers, hend⟩
  · rintro ⟨mid, hmembers, hend⟩
    exact ⟨_, _, rfl, s', mid, hmembers, (), rest, hend, pure_eq_ok_iff.mpr rfl⟩

end

/-! ## What is taken -/

/-- A reader takes bytes off the front and leaves the rest as it is. -/
def Takes (r : Reader α) : Prop := ∀ ⦃bs rest a⦄, r bs = .ok (a, rest) → rest <:+ bs

namespace Takes

theorem pure (a : α) : Takes (Pure.pure a : Reader α) := by
  intro bs rest b h
  cases pure_eq_ok_iff.mp h
  exact List.suffix_refl bs

theorem bind {x : Reader α} {f : α → Reader β} (hx : Takes x) (hf : ∀ a, Takes (f a)) :
    Takes (x >>= f) := by
  intro bs rest b h
  obtain ⟨a, mid, ha, hb⟩ := bind_eq_ok_iff.mp h
  exact (hf a hb).trans (hx ha)

theorem map {x : Reader α} (hx : Takes x) (g : α → β) : Takes (g <$> x) := by
  intro bs rest b h
  obtain ⟨a, ha, -⟩ := map_eq_ok_iff.mp h
  exact hx ha

theorem seqRight {x : Reader α} {y : Reader β} (hx : Takes x) (hy : Takes y) : Takes (x *> y) := by
  rw [seqRight_eq_bind]
  exact hx.bind fun _ => hy

theorem ite {x y : Reader α} {p : Prop} [Decidable p] (hx : Takes x) (hy : Takes y) :
    Takes (if p then x else y) := by
  split_ifs
  · exact hx
  · exact hy

theorem fail (o : Obstacle) : Takes (fail o : Reader α) := fun _ _ _ h => (fail_ne_ok h).elim

theorem refuse (f : Flaw) : Takes (refuse f : Reader α) := fun _ _ _ h => (refuse_ne_ok h).elim

theorem breakOff (u : Unfinished) : Takes (breakOff u : Reader α) :=
  fun _ _ _ h => (breakOff_ne_ok h).elim

end Takes

theorem takes_peek (u : Unfinished) : Takes (peek u) := by
  intro bs rest c h
  obtain ⟨tail, hdrop, rfl⟩ := peek_eq_ok_iff.mp h
  exact hdrop ▸ List.dropWhile_suffix isBlank

theorem takes_take : Takes take := by
  intro bs rest a h
  cases h
  exact List.tail_suffix bs

theorem takes_literal (word : List Char) : Takes (literal word) := by
  induction word with
  | nil => exact .pure ()
  | cons c word ih =>
    intro bs rest a h
    unfold literal at h
    split at h
    · exact (breakOff_ne_ok h).elim
    · split_ifs at h
      · exact (ih h).trans (List.suffix_cons ..)
      · exact (refuse_ne_ok h).elim

/-! ### Texts -/

theorem takes_next : Takes next := by
  intro bs rest b h
  cases bs with
  | nil => exact nomatch h
  | cons c bs =>
    cases h
    exact List.suffix_cons ..

theorem takes_unit : Takes unit := by
  intro bs rest n h
  unfold unit at h
  split at h
  · split at h
    · cases h
      exact ⟨[_, _, _, _], rfl⟩
    · exact (fail_ne_ok h).elim
  · exact (breakOff_ne_ok h).elim

theorem takes_secondUnit : Takes secondUnit :=
  takes_next.bind fun _ => .ite (takes_next.bind fun _ => .ite takes_unit (.fail _)) (.fail _)

theorem takes_codePoint : Takes codePoint := by
  refine takes_unit.bind fun n => .ite (.fail _) (.ite ?_ (.pure _))
  exact takes_secondUnit.bind fun m => .ite (.pure _) (.fail _)

theorem takes_escape : Takes escape := by
  refine takes_next.bind fun b => .ite takes_codePoint ?_
  cases letters.lookup b with
  | none => exact .fail _
  | some c => exact .pure c

theorem takes_characters (bound done : Bytes) : Takes (characters bound done) := by
  induction bound generalizing done with
  | nil => exact .breakOff _
  | cons b bound ih =>
    exact takes_next.bind fun b => .ite (.pure _) <| .ite (takes_escape.bind fun c => ih _) <|
      .ite (.fail _) (ih _)

theorem takes_bound : Takes bound := by
  intro bs rest a h
  cases h
  exact List.suffix_refl bs

theorem takes_ofBytes (bs : Bytes) : Takes (ofBytes bs) := by
  unfold ofBytes
  cases bs.text? with
  | none => exact .fail _
  | some s => exact .pure s

theorem takes_text : Takes text :=
  takes_bound.bind fun _ => (takes_characters _ _).bind takes_ofBytes

/-! ### Numbers -/

theorem takes_someDigits (atEnd : Obstacle) : Takes (Numeral.someDigits atEnd) := by
  intro bs rest ds h
  unfold Numeral.someDigits at h
  split at h
  · exact (fail_ne_ok h).elim
  · exact (refuse_ne_ok h).elim
  · cases h
    exact List.dropWhile_suffix _

theorem takes_wholePart (atEnd : Obstacle) : Takes (Numeral.wholePart atEnd) := by
  intro bs rest ds h
  unfold Numeral.wholePart at h
  cases hr : Numeral.someDigits atEnd bs with
  | error e => simp [hr, bind, Except.bind] at h
  | ok r =>
    simp only [hr, bind, Except.bind] at h
    split at h
    · exact (refuse_ne_ok h).elim
    · cases h
      exact takes_someDigits atEnd hr

theorem takes_takeIf (b : UInt8) : Takes (Numeral.takeIf b) := by
  intro bs rest a h
  unfold Numeral.takeIf at h
  split_ifs at h
  · cases h
    exact List.tail_suffix bs
  · cases h
    exact List.suffix_refl bs

theorem takes_fractionPart (atEnd : Obstacle) : Takes (Numeral.fractionPart atEnd) :=
  (takes_takeIf _).bind fun _ => .ite (takes_someDigits atEnd) (.pure _)

theorem takes_exponentPart (atEnd : Obstacle) : Takes (Numeral.exponentPart atEnd) := by
  have hmark : Takes Numeral.exponentMark :=
    (takes_takeIf _).bind fun _ => .ite (.pure _) (takes_takeIf _)
  have hsign : Takes Numeral.exponentSign :=
    (takes_takeIf _).bind fun _ => .ite (.pure _) (takes_takeIf _)
  exact hmark.bind fun _ =>
    .ite (hsign.bind fun _ => (takes_someDigits atEnd).bind fun _ => .pure _) (.pure _)

theorem takes_number : Takes number := by
  refine Takes.bind ?_ fun t => ?_
  · exact (takes_takeIf _).bind fun _ => (takes_wholePart _).bind fun _ =>
      (takes_fractionPart _).bind fun _ => (takes_exponentPart _).bind fun _ => .pure _
  · cases t.value? with
    | none => exact fun _ _ _ h => nomatch h
    | some n => exact .pure n

/-! ### Containers -/

theorem takes_moreElements (first : Bool) : Takes (moreElements first) :=
  (takes_peek _).bind fun _ => .ite (.pure _) <| .ite (.pure _) <|
    .ite (takes_take.bind fun _ => (takes_peek _).bind fun _ => .ite (.refuse _) (.pure _))
      (.refuse _)

theorem takes_moreMembers (first : Bool) : Takes (moreMembers first) := by
  refine (takes_peek _).bind fun _ => .ite (.pure _) <| .ite ?_ <| .ite ?_ (.refuse _)
  · exact .ite (takes_take.bind fun _ => .pure _) (.refuse _)
  · exact takes_take.bind fun _ => (takes_peek _).bind fun _ =>
      .ite (takes_take.bind fun _ => .pure _) (.ite (.refuse _) (.refuse _))

theorem takes_colon : Takes colon := (takes_peek _).bind fun _ => .ite takes_take (.refuse _)

theorem takes_endArray : Takes endArray := by
  refine (takes_peek _).bind fun _ => .ite takes_take (.ite (takes_take.bind fun _ => ?_)
    (.refuse _))
  intro bs rest a h
  dsimp only at h
  split_ifs at h
  · exact (refuse_ne_ok h).elim
  · exact (refuse_ne_ok h).elim

theorem takes_endObject : Takes endObject :=
  (takes_peek _).bind fun _ => .ite takes_take (.ite (.refuse _) (.refuse _))

section

variable {item : σ → Reader σ} {key : Reader κ} {member : σ → κ → Reader σ}

theorem takes_elements (hitem : ∀ s, Takes (item s)) (bound : Bytes) (first : Bool) (s : σ) :
    Takes (elements item bound first s) := by
  induction bound generalizing first s with
  | nil => exact .breakOff _
  | cons b bound ih =>
    exact (takes_moreElements first).bind fun _ =>
      .ite ((hitem s).bind fun s => ih false s) (.pure s)

theorem takes_array (hitem : ∀ s, Takes (item s)) (s : σ) : Takes (array item s) :=
  takes_bound.bind fun _ => (takes_elements hitem _ _ _).bind fun _ =>
    takes_endArray.bind fun _ => .pure _

theorem takes_members (hkey : Takes key) (hmember : ∀ s k, Takes (member s k)) (bound : Bytes)
    (first : Bool) (s : σ) : Takes (members key member bound first s) := by
  induction bound generalizing first s with
  | nil => exact .breakOff _
  | cons b bound ih =>
    exact (takes_moreMembers first).bind fun _ =>
      .ite (hkey.bind fun k => (hmember s k).bind fun s => ih false s) (.pure s)

theorem takes_object (hkey : Takes key) (hmember : ∀ s k, Takes (member s k)) (s : σ) :
    Takes (object key member s) :=
  takes_bound.bind fun _ => (takes_members hkey hmember _ _ _).bind fun _ =>
    takes_endObject.bind fun _ => .pure _

end

/-! ### Values -/

theorem takes_dispatch {onArray onObject : Reader α} {onAtom : UInt8 → Reader α}
    (harray : Takes onArray) (hobject : Takes onObject) (hatom : ∀ c, Takes (onAtom c)) :
    Takes (dispatch onArray onObject onAtom) :=
  (takes_peek _).bind fun c => .ite (takes_take.seqRight harray) <|
    .ite (takes_take.seqRight hobject) (hatom c)

theorem takes_atom (c : UInt8) : Takes (atom c) :=
  .ite (takes_take.seqRight (takes_text.map _)) <| .ite ((takes_literal _).map _) <|
    .ite ((takes_literal _).map _) <| .ite ((takes_literal _).map _) <|
    .ite (takes_number.map _) (.refuse _)

theorem takes_items {item : Reader α} (hitem : Takes item) : Takes (items item) :=
  (takes_array (fun _ => hitem.map _) []).map _

theorem takes_namedMembers {item : Reader α} (hitem : Takes item) : Takes (namedMembers item) :=
  (takes_object takes_text (fun _ _ => takes_colon.bind fun _ => hitem.bind fun _ => .pure _)
    []).map _

theorem takes_value (depth : Nat) : Takes (value depth) := by
  induction depth with
  | zero => exact (takes_peek _).bind fun c => .ite (.refuse _) (takes_atom c)
  | succ d ih =>
    exact takes_dispatch ((takes_items ih).map _) ((takes_namedMembers ih).map _) takes_atom

/-! ## Loops -/

section

variable {item : σ → Reader σ} {bound bs rest : Bytes} {s s' : σ}

/-- Another element takes a comma. -/
theorem length_lt_of_moreElements (h : moreElements false bs = .ok (true, rest)) :
    rest.length < bs.length := by
  obtain ⟨c, tail, hdrop, h⟩ := peek_bind_eq_ok_iff.mp h
  have hle : (c :: tail).length ≤ bs.length := (hdrop ▸ List.dropWhile_suffix _).length_le
  simp only [Bool.false_eq_true, if_false] at h
  split_ifs at h
  · cases pure_eq_ok_iff.mp h
  · obtain ⟨_, mid, htake, h⟩ := bind_eq_ok_iff.mp h
    cases htake
    have hrest : Takes (do if (← peek .value) = ']' then refuse .trailingComma else pure true) :=
      (takes_peek _).bind fun _ => .ite (.refuse _) (.pure _)
    have := (hrest h).length_le
    simp only [List.tail_cons, List.length_cons] at this hle
    omega
  · exact (refuse_ne_ok h).elim

/-- Past the first element, any bound longer than the text is as good as another. -/
theorem elements_of_bound (hitem : ∀ s, Takes (item s))
    (h : elements item bound false s bs = .ok (s', rest)) {bound' : Bytes}
    (hlen : bs.length < bound'.length) : elements item bound' false s bs = .ok (s', rest) := by
  induction bound generalizing bound' s bs with
  | nil => exact (breakOff_ne_ok h).elim
  | cons b bound ih =>
    obtain ⟨b', bound', rfl⟩ := List.exists_cons_of_length_pos (by omega : 0 < bound'.length)
    obtain ⟨more, mid, hmore, h⟩ := bind_eq_ok_iff.mp h
    refine bind_eq_ok_iff.mpr ⟨more, mid, hmore, ?_⟩
    cases more with
    | false => exact h
    | true =>
      obtain ⟨s₁, mid₁, hs₁, h⟩ := bind_eq_ok_iff.mp h
      -- The comma makes the text shorter at least as fast as the bound.
      have hcomma := length_lt_of_moreElements hmore
      have htaken := (hitem s hs₁).length_le
      rw [List.length_cons] at hlen
      exact bind_eq_ok_iff.mpr ⟨s₁, mid₁, hs₁, ih h (by omega)⟩

/-- Two loops over the same elements whose states stay related in every round. -/
theorem elements_sim {item' : τ → Reader τ} {R : σ → τ → Prop} {first : Bool} {t : τ}
    (h : elements item bound first s bs = .ok (s', rest)) (hR : R s t)
    (hstep : ∀ s t bs s' rest, R s t → item s bs = .ok (s', rest) →
      ∃ t', item' t bs = .ok (t', rest) ∧ R s' t') :
    ∃ t', elements item' bound first t bs = .ok (t', rest) ∧ R s' t' := by
  induction bound generalizing first s t bs with
  | nil => exact (breakOff_ne_ok h).elim
  | cons b bound ih =>
    obtain ⟨more, mid, hmore, h⟩ := bind_eq_ok_iff.mp h
    cases more with
    | false =>
      cases pure_eq_ok_iff.mp h
      exact ⟨t, bind_eq_ok_iff.mpr ⟨_, _, hmore, rfl⟩, hR⟩
    | true =>
      obtain ⟨s₁, mid₁, hs₁, h⟩ := bind_eq_ok_iff.mp h
      obtain ⟨t₁, ht₁, hR₁⟩ := hstep _ _ _ _ _ hR hs₁
      obtain ⟨t', ht', hR'⟩ := ih h hR₁
      exact ⟨t', bind_eq_ok_iff.mpr ⟨_, _, hmore, bind_eq_ok_iff.mpr ⟨_, _, ht₁, ht'⟩⟩, hR'⟩

end

/-- Two loops over the same members whose states stay related in every round. What holds of the
first state at the end and is never made true by a round, `P`, may be used in all of them. -/
theorem members_sim {key : Reader κ} {member : σ → κ → Reader σ} {member' : τ → κ → Reader τ}
    {bound bs rest : Bytes} {first : Bool} {s s' : σ} {P : σ → Prop} {R : σ → τ → Prop}
    (h : members key member bound first s bs = .ok (s', rest)) (hP : P s')
    (hstep : ∀ s k bs s' rest, member s k bs = .ok (s', rest) → P s' →
      P s ∧ ∀ t, R s t → ∃ t', member' t k bs = .ok (t', rest) ∧ R s' t') :
    P s ∧ ∀ t, R s t → ∃ t', members key member' bound first t bs = .ok (t', rest) ∧ R s' t' := by
  -- `P` is carried back from the end, `R` forward from the start.
  induction bound generalizing first s bs with
  | nil => exact (breakOff_ne_ok h).elim
  | cons b bound ih =>
    obtain ⟨more, mid, hmore, h⟩ := bind_eq_ok_iff.mp h
    cases more with
    | false =>
      cases pure_eq_ok_iff.mp h
      exact ⟨hP, fun t hR => ⟨t, bind_eq_ok_iff.mpr ⟨_, _, hmore, rfl⟩, hR⟩⟩
    | true =>
      obtain ⟨k, mid₁, hk, h⟩ := bind_eq_ok_iff.mp h
      obtain ⟨s₁, mid₂, hs₁, h⟩ := bind_eq_ok_iff.mp h
      obtain ⟨hP₁, hsim⟩ := ih h
      obtain ⟨hP₀, hround⟩ := hstep _ _ _ _ _ hs₁ hP₁
      refine ⟨hP₀, fun t hR => ?_⟩
      obtain ⟨t₁, ht₁, hR₁⟩ := hround t hR
      obtain ⟨t', ht', hR'⟩ := hsim t₁ hR₁
      exact ⟨t', bind_eq_ok_iff.mpr ⟨_, _, hmore, bind_eq_ok_iff.mpr ⟨_, _, hk,
        bind_eq_ok_iff.mpr ⟨_, _, ht₁, ht'⟩⟩⟩, hR'⟩

end AccessCache.Json.Reader
