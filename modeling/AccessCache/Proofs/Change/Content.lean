import AccessCache.Change.Document
import AccessCache.Proofs.Steps
import Mathlib.Data.List.Nodup
import Mathlib.Tactic.SplitIfs

/-!
# What makes a change

The trees that a change is made of: an object that has its tag and its fields once each
(`Describes`) or an array that lists them (`Lists`). Filling the fields one by one comes to the
same: what a field holds in the end (`Parts.holds`) is what it was given, in an object by its name
and in an array by its place.
-/

namespace AccessCache.Change

open Json Json.Reader

/-! ## Documents of a change -/

/-- The values of the members with this name, in reading order. -/
def valuesOf (ms : List (String × Value)) (name : String) : List Value :=
  (ms.filter (·.1 = name)).map (·.2)

/-- The value of a field. -/
def value (c : Change) : Field → Value
  | .members => .array (c.members.map .text)
  | f => .text (c.text f)

/-- What may stand for a field: its value once or, where the change lists no members, nothing for
them. -/
def Has (c : Change) (f : Field) (vs : List Value) : Prop :=
  vs = [c.value f] ∨ f = .members ∧ c.members = [] ∧ vs = []

/-- The members of an object describe a change: they hold its tag once, and its fields. Their order
does not matter, nor what other members there are. -/
structure Describes (ms : List (String × Value)) (c : Change) : Prop where
  tag : valuesOf ms "event" = [.text c.tag.name]
  fields : ∀ f ∈ c.tag.fields, c.Has f (valuesOf ms f.name)

/-- The elements of an array list a change: its tag and its fields in order. An empty list of
members at the end may be left out. -/
def Lists (items : List Value) (c : Change) : Prop :=
  items = .text c.tag.name :: c.tag.fields.map c.value ∨
    ∃ g, c = .groupRemoved g [] ∧ items = [.text c.tag.name, .text g.text]

theorem valuesOf_cons (k : String) (v : Value) (ms : List (String × Value)) (name : String) :
    valuesOf ((k, v) :: ms) name = (if k = name then [v] else []) ++ valuesOf ms name := by
  by_cases h : k = name <;> simp [valuesOf, h]

/-! ## Fields -/

theorem Field.name_inj {f g : Field} (h : f.name = g.name) : f = g := by
  cases f <;> cases g <;> first | rfl | exact absurd h (by decide)

theorem Field.name_eq_iff {f g : Field} : f.name = g.name ↔ f = g :=
  ⟨Field.name_inj, congrArg Field.name⟩

theorem Tag.nodup_fields (t : Tag) : t.fields.Nodup := by
  cases t <;> decide

namespace Tag

variable {t : Tag} {text text' : Field → String} {ms ms' : List String}

@[simp] theorem tag_change : (t.change text ms).tag = t := by
  cases t <;> rfl

theorem text_change {f : Field} (hf : f ∈ t.fields) (hne : f ≠ .members) :
    (t.change text ms).text f = text f := by
  cases t <;> cases f <;> first | rfl | exact absurd hf (by decide) | exact absurd rfl hne

theorem members_change (h : .members ∈ t.fields) : (t.change text ms).members = ms := by
  cases t <;> first | exact absurd h (by decide) | simp [change, members, Function.comp_def]

/-- A change is made of its own fields only. -/
theorem change_congr (htext : ∀ f ∈ t.fields, f ≠ .members → text f = text' f)
    (hms : .members ∈ t.fields → ms = ms') : t.change text ms = t.change text' ms' := by
  cases t <;> simp_all [change, fields]

end Tag

namespace Parts

/-- What has been read of a field, as the value it was read from. -/
def holds (p : Parts) : Field → List Value
  | .members => p.members.toList.map fun ss => .array (ss.map .text)
  | f => (p.texts.lookup f).toList.map .text

variable {p p' : Parts} {f g : Field} {v : Value}

theorem holds_of_ne (h : f ≠ .members) : p.holds f = (p.texts.lookup f).toList.map .text := by
  cases f <;> first | rfl | exact absurd rfl h

theorem filled_of_ne (h : f ≠ .members) : p.filled f = (p.texts.lookup f).isSome := by
  cases f <;> first | rfl | exact absurd rfl h

theorem fill_of_ne (h : f ≠ .members) :
    p.fill f v = (textOfValue v >>= fun s => pure { p with texts := (f, s) :: p.texts }) := by
  cases f <;> first | rfl | exact absurd rfl h

theorem filled_eq_false_iff : p.filled f = false ↔ p.holds f = [] := by
  by_cases h : f = .members
  · subst h
    cases hm : p.members <;> simp [filled, holds, hm]
  · rw [filled_of_ne h, holds_of_ne h]
    cases p.texts.lookup f <;> simp

end Parts

/-- What may be read into a field. -/
def Field.Fits : Field → Value → Prop
  | .members, v => ∃ ss : List String, v = .array (ss.map .text)
  | _, v => ∃ s, v = .text s

theorem textOfValue_eq_ok_iff {v : Value} {s : String} : textOfValue v = .ok s ↔ v = .text s := by
  cases v <;> simp [textOfValue]

theorem textsOfValue_eq_ok_iff {v : Value} {ss : List String} :
    textsOfValue v = .ok ss ↔ v = .array (ss.map .text) := by
  cases v with
  | array items =>
    rw [Value.array.injEq]
    exact Steps.mapM_eq_ok_iff fun _ _ => textOfValue_eq_ok_iff
  | _ => simp [textsOfValue]

namespace Parts

variable {p p' : Parts} {f g : Field} {v : Value}

/-- A field that is filled holds the value it is filled from, the others what they held. -/
theorem holds_fill (h : p.fill f v = .ok p') (hempty : p.holds f = []) (g : Field) :
    p'.holds g = p.holds g ++ if g = f then [v] else [] := by
  by_cases hf : f = .members
  · subst hf
    obtain ⟨ss, hss, hp⟩ := Steps.bind_eq_ok_iff.mp h
    cases hp
    by_cases hg : g = .members
    · subst hg
      rw [hempty, textsOfValue_eq_ok_iff.mp hss]
      simp [holds]
    · simp [holds_of_ne hg, hg]
  · rw [fill_of_ne hf] at h
    obtain ⟨s, hs, hp⟩ := Steps.bind_eq_ok_iff.mp h
    cases hp
    by_cases hg : g = .members
    · subst hg
      simp [holds, Ne.symm hf]
    · by_cases hgf : g = f
      · subst hgf
        rw [hempty, holds_of_ne hg, textOfValue_eq_ok_iff.mp hs]
        simp
      · have hlookup : (g == f) = false := by simpa using hgf
        simp [holds_of_ne hg, List.lookup_cons, hlookup, hgf]

theorem holds_empty (f : Field) : ({} : Parts).holds f = [] := by
  cases f <;> rfl

theorem exists_fill (p : Parts) (h : f.Fits v) : ∃ p', p.fill f v = .ok p' := by
  by_cases hf : f = .members
  · subst hf
    obtain ⟨ss, rfl⟩ := h
    exact ⟨_, Steps.bind_eq_ok_iff.mpr ⟨ss, textsOfValue_eq_ok_iff.mpr rfl, rfl⟩⟩
  · have hv : ∃ s, v = .text s := by
      cases f <;> first | exact h | exact absurd rfl hf
    obtain ⟨s, rfl⟩ := hv
    rw [fill_of_ne hf]
    exact ⟨_, Steps.bind_eq_ok_iff.mpr ⟨s, rfl, rfl⟩⟩

/-- What a field may hold: nothing, or one value that fits. -/
def Held (f : Field) (vs : List Value) : Prop := vs = [] ∨ ∃ v, vs = [v] ∧ f.Fits v

/-- A value among those of a field is the only one, and fits. -/
theorem held_append_cons {vs ws : List Value} (h : Held f (vs ++ ([v] ++ ws))) :
    vs = [] ∧ f.Fits v := by
  rcases h with hnil | ⟨w, hone, hw⟩
  · simp at hnil
  · have hlen := congrArg List.length hone
    simp only [List.length_append, List.length_cons, List.length_nil] at hlen
    obtain rfl : vs = [] := List.eq_nil_of_length_eq_zero (by omega)
    simp only [List.nil_append, List.singleton_append, List.cons.injEq] at hone
    exact ⟨rfl, hone.1 ▸ hw⟩

end Parts

open Parts

/-! ### Objects -/

section

variable {fields : List Field} {p p' : Parts} {ms : List (String × Value)}

theorem fillMembers_other {k : String} (h : ∀ f ∈ fields, f.name ≠ k) (v : Value) :
    fillMembers fields p ((k, v) :: ms) = fillMembers fields p ms := by
  have hfind : fields.find? (·.name = k) = none := by simpa using h
  simp only [fillMembers, hfind]

theorem fillMembers_field {g : Field} (hg : g ∈ fields) (v : Value) :
    fillMembers fields p ((g.name, v) :: ms) =
      if p.filled g then .error (.duplicateField g.name)
      else p.fill g v >>= fun p => fillMembers fields p ms := by
  obtain ⟨f, hfind⟩ : ∃ f, fields.find? (·.name = g.name) = some f :=
    Option.isSome_iff_exists.mp (List.find?_isSome.mpr ⟨g, hg, by simp⟩)
  have hf : f = g := Field.name_inj (by simpa using List.find?_some hfind)
  subst hf
  simp only [fillMembers, hfind]
  split_ifs
  · rfl
  · rfl

/-- The fields hold what they held and what the members have for them. -/
theorem holds_fillMembers (h : fillMembers fields p ms = .ok p') :
    ∀ f ∈ fields, p'.holds f = p.holds f ++ valuesOf ms f.name := by
  induction ms generalizing p with
  | nil =>
    cases h
    simp [valuesOf]
  | cons m ms ih =>
    obtain ⟨k, v⟩ := m
    intro f hf
    by_cases hk : ∃ g ∈ fields, g.name = k
    · obtain ⟨g, hg, rfl⟩ := hk
      rw [fillMembers_field hg] at h
      split_ifs at h with hfilled
      obtain ⟨p₁, hfill, h⟩ := Steps.bind_eq_ok_iff.mp h
      have hempty := filled_eq_false_iff.mp (by simpa using hfilled)
      rw [ih h f hf, holds_fill hfill hempty f, valuesOf_cons, List.append_assoc]
      simp only [Field.name_eq_iff, @eq_comm _ f g]
    · have hother : ∀ g ∈ fields, g.name ≠ k := fun g hg hgk => hk ⟨g, hg, hgk⟩
      rw [fillMembers_other hother] at h
      rw [valuesOf_cons, if_neg fun hkf => hother f hf hkf.symm]
      exact ih h f hf

/-- The members are read if no field is given twice, and each is given what fits it. -/
theorem exists_fillMembers (h : ∀ f ∈ fields, Held f (p.holds f ++ valuesOf ms f.name)) :
    ∃ p', fillMembers fields p ms = .ok p' := by
  induction ms generalizing p with
  | nil => exact ⟨p, rfl⟩
  | cons m ms ih =>
    obtain ⟨k, v⟩ := m
    by_cases hk : ∃ g ∈ fields, g.name = k
    · obtain ⟨g, hg, rfl⟩ := hk
      obtain ⟨hempty, hfits⟩ : p.holds g = [] ∧ g.Fits v := by
        have hheld := h g hg
        rw [valuesOf_cons, if_pos rfl] at hheld
        exact held_append_cons hheld
      obtain ⟨p₁, hfill⟩ := p.exists_fill hfits
      have hnext : ∀ f ∈ fields, Held f (p₁.holds f ++ valuesOf ms f.name) := by
        intro f hf
        have hheld := h f hf
        rw [valuesOf_cons, ← List.append_assoc] at hheld
        simp only [Field.name_eq_iff, @eq_comm _ g f] at hheld
        rwa [holds_fill hfill hempty f]
      obtain ⟨p', hp'⟩ := ih hnext
      refine ⟨p', ?_⟩
      rw [fillMembers_field hg, if_neg (by simp [filled_eq_false_iff.mpr hempty])]
      exact Steps.bind_eq_ok_iff.mpr ⟨p₁, hfill, hp'⟩
    · have hother : ∀ g ∈ fields, g.name ≠ k := fun g hg hgk => hk ⟨g, hg, hgk⟩
      rw [fillMembers_other hother]
      refine ih fun f hf => ?_
      have hheld := h f hf
      rwa [valuesOf_cons, if_neg fun hkf => hother f hf hkf.symm] at hheld

end

/-! ### Arrays -/

section

variable {t : Tag} {i : Nat} {p p' : Parts} {fs : List Field} {vs : List Value}

theorem fillItems_cons {f : Field} {v : Value} :
    fillItems t i p (f :: fs) (v :: vs) =
      p.fill f v >>= fun p => fillItems t (i + 1) p fs vs := by
  cases f <;> rfl

/-- The values are those that the fields hold, in order. -/
theorem holds_fillItems (h : fillItems t i p fs vs = .ok p') (hfs : fs.Nodup)
    (hempty : ∀ f ∈ fs, p.holds f = []) :
    vs = fs.flatMap p'.holds ∧ (∀ f ∈ fs, f ≠ .members → p'.holds f ≠ []) ∧
      ∀ f ∉ fs, p'.holds f = p.holds f := by
  induction fs generalizing i p vs with
  | nil =>
    cases vs with
    | nil =>
      cases h
      simp
    | cons v vs => exact nomatch h
  | cons f fs ih =>
    obtain ⟨hf, hrest⟩ := List.nodup_cons.mp hfs
    cases vs with
    | nil =>
      by_cases hm : f = .members
      · subst hm
        obtain ⟨hvs, hne, hsame⟩ := ih h hrest fun g hg => hempty g (List.mem_cons_of_mem _ hg)
        have hnone : p'.holds .members = [] := by
          rw [hsame _ hf, hempty _ List.mem_cons_self]
        refine ⟨by rw [List.flatMap_cons, hnone, ← hvs]; rfl, ?_, ?_⟩
        · intro g hg hgm
          exact hne g ((List.mem_cons.mp hg).resolve_left hgm) hgm
        · exact fun g hg => hsame g fun hmem => hg (List.mem_cons_of_mem _ hmem)
      · cases f <;> first | exact absurd rfl hm | exact nomatch h
    | cons v vs =>
      rw [fillItems_cons] at h
      obtain ⟨p₁, hfill, h⟩ := Steps.bind_eq_ok_iff.mp h
      have hholds := holds_fill hfill (hempty f List.mem_cons_self)
      have hother : ∀ g, g ≠ f → p₁.holds g = p.holds g := fun g hg => by
        rw [hholds g, if_neg hg, List.append_nil]
      have hempty' : ∀ g ∈ fs, p₁.holds g = [] := fun g hg => by
        rw [hother g (fun hgf => hf (hgf ▸ hg)), hempty g (List.mem_cons_of_mem _ hg)]
      obtain ⟨hvs, hne, hsame⟩ := ih h hrest hempty'
      have hone : p'.holds f = [v] := by
        rw [hsame f hf, hholds f, hempty f List.mem_cons_self, if_pos rfl]
        rfl
      refine ⟨by rw [List.flatMap_cons, hone, ← hvs]; rfl, ?_, ?_⟩
      · intro g hg hgm
        rcases List.mem_cons.mp hg with rfl | hg
        · simp [hone]
        · exact hne g hg hgm
      · intro g hg
        obtain ⟨hgf, hg⟩ := not_or.mp (List.mem_cons.not.mp hg)
        rw [hsame g hg, hother g hgf]

end

/-! ### Contents -/

section

variable {t : Tag} {c : Change} {p : Parts}

theorem fits_value (c : Change) (f : Field) : f.Fits (c.value f) := by
  cases f <;> exact ⟨_, rfl⟩

theorem value_of_ne {f : Field} (h : f ≠ .members) : c.value f = .text (c.text f) := by
  cases f <;> first | rfl | exact absurd rfl h

theorem Has.held {f : Field} {vs : List Value} (h : c.Has f vs) : Held f vs := by
  rcases h with rfl | ⟨-, -, rfl⟩
  · exact .inr ⟨_, rfl, c.fits_value f⟩
  · exact .inl rfl

theorem missing?_eq_none_iff {fields : List Field} :
    missing? fields p = none ↔ ∀ f ∈ fields, f ≠ .members → p.holds f ≠ [] := by
  simp only [missing?, List.find?_eq_none, Bool.and_eq_true, decide_eq_true_eq, Bool.not_eq_true',
    not_and, filled_eq_false_iff, ne_eq]

theorem has_members_iff : c.Has .members (p.holds .members) ↔ p.members.getD [] = c.members := by
  have htexts (ss : List String) : ss.map Value.text = c.members.map .text ↔ ss = c.members :=
    List.map_inj_right fun _ _ => Value.text.inj
  cases hp : p.members with
  | none => simp [Has, holds, hp, value, @eq_comm _ []]
  | some ss => simp [Has, holds, hp, value, htexts]

theorem has_text_iff {f : Field} (hm : f ≠ .members) (hne : p.holds f ≠ []) :
    c.Has f (p.holds f) ↔ p.text f = c.text f := by
  rw [holds_of_ne hm] at hne ⊢
  cases hp : p.texts.lookup f with
  | none => exact absurd (by rw [hp]; rfl) hne
  | some s => simp [Has, hm, value_of_ne hm, Parts.text, hp]

/-- The change that has been read has, in each of its fields, what was read of the field. -/
theorem change_eq_iff (hne : ∀ f ∈ t.fields, f ≠ .members → p.holds f ≠ []) :
    t.change p.text (p.members.getD []) = c ↔ c.tag = t ∧ ∀ f ∈ t.fields, c.Has f (p.holds f) := by
  constructor
  · rintro rfl
    refine ⟨Tag.tag_change, fun f hf => ?_⟩
    by_cases hm : f = .members
    · subst hm
      exact has_members_iff.mpr (Tag.members_change hf).symm
    · exact (has_text_iff hm (hne f hf hm)).mpr (Tag.text_change hf hm).symm
  · rintro ⟨rfl, h⟩
    have hsame : c.tag.change p.text (p.members.getD []) = c.tag.change c.text c.members :=
      Tag.change_congr (fun f hf hm => (has_text_iff hm (hne f hf hm)).mp (h f hf))
        fun hf => has_members_iff.mp (h _ hf)
    exact hsame.trans c.change_tag

theorem ofContent_object (t : Tag) (ms : List (String × Value)) :
    ofContent t (.object ms) = fillMembers t.fields {} ms >>= fun p =>
      match missing? t.fields p with
      | some f => .error (.missingField f.name)
      | none => .ok (t.change p.text (p.members.getD [])) := by
  unfold ofContent
  refine congrArg (fillMembers t.fields {} ms >>= ·) (funext fun p => ?_)
  cases missing? t.fields p with
  | none => rfl
  | some f => rfl

/-- The members of an object make a change if they have each of its fields. -/
theorem ofContent_object_eq_ok_iff {ms : List (String × Value)} :
    ofContent t (.object ms) = .ok c ↔
      c.tag = t ∧ ∀ f ∈ t.fields, c.Has f (valuesOf ms f.name) := by
  rw [ofContent_object]
  constructor
  · intro h
    obtain ⟨p, hfill, h⟩ := Steps.bind_eq_ok_iff.mp h
    cases hmissing : missing? t.fields p with
    | some f =>
      rw [hmissing] at h
      exact nomatch h
    | none =>
      rw [hmissing] at h
      obtain ⟨htag, hhas⟩ := (change_eq_iff (missing?_eq_none_iff.mp hmissing)).mp (Except.ok.inj h)
      refine ⟨htag, fun f hf => ?_⟩
      have hholds := holds_fillMembers hfill f hf
      rw [holds_empty, List.nil_append] at hholds
      exact hholds ▸ hhas f hf
  · rintro ⟨htag, hhas⟩
    obtain ⟨p, hfill⟩ : ∃ p, fillMembers t.fields {} ms = .ok p := by
      refine exists_fillMembers fun f hf => ?_
      rw [holds_empty, List.nil_append]
      exact (hhas f hf).held
    have hholds (f : Field) (hf : f ∈ t.fields) : p.holds f = valuesOf ms f.name := by
      rw [holds_fillMembers hfill f hf, holds_empty, List.nil_append]
    have hne : ∀ f ∈ t.fields, f ≠ .members → p.holds f ≠ [] := by
      intro f hf hm hnil
      rcases hhas f hf with hone | ⟨hmem, -⟩
      · rw [← hholds f hf, hnil] at hone
        exact nomatch hone
      · exact hm hmem
    refine Steps.bind_eq_ok_iff.mpr ⟨p, hfill, ?_⟩
    rw [missing?_eq_none_iff.mpr hne]
    refine congrArg Except.ok ((change_eq_iff hne).mpr ⟨htag, fun f hf => ?_⟩)
    exact (hholds f hf) ▸ hhas f hf

/-- The values of a change are read into its fields. -/
theorem exists_fillItems (c : Change) {i : Nat} {fs : List Field} (hfs : fs.Nodup)
    (hempty : ∀ f ∈ fs, p.holds f = []) :
    ∃ p', fillItems t i p fs (fs.map c.value) = .ok p' ∧ ∀ f ∈ fs, p'.holds f = [c.value f] := by
  induction fs generalizing i p with
  | nil => exact ⟨p, rfl, by simp⟩
  | cons f fs ih =>
    obtain ⟨hf, hrest⟩ := List.nodup_cons.mp hfs
    have hhead := hempty f List.mem_cons_self
    obtain ⟨p₁, hfill⟩ := p.exists_fill (c.fits_value f)
    have hempty' : ∀ g ∈ fs, p₁.holds g = [] := by
      intro g hg
      have hgf : g ≠ f := fun hgf => hf (hgf ▸ hg)
      rw [holds_fill hfill hhead g, hempty g (List.mem_cons_of_mem _ hg), if_neg hgf]
      rfl
    obtain ⟨p', hp', hholds⟩ := ih (i := i + 1) hrest hempty'
    refine ⟨p', ?_, ?_⟩
    · rw [List.map_cons, fillItems_cons]
      exact Steps.bind_eq_ok_iff.mpr ⟨p₁, hfill, hp'⟩
    · intro g hg
      rcases List.mem_cons.mp hg with rfl | hg
      · rw [(holds_fillItems hp' hrest hempty').2.2 g hf, holds_fill hfill hhead g, hhead,
          if_pos rfl]
        rfl
      · exact hholds g hg

theorem ofContent_array (t : Tag) (items : List Value) :
    ofContent t (.array items) = fillItems t 0 {} t.fields items >>= fun p =>
      .ok (t.change p.text (p.members.getD [])) := rfl

/-- The elements of an array behind its tag make the change that they list. -/
theorem ofContent_array_eq_ok_iff {items : List Value} :
    ofContent t (.array items) = .ok c ↔ c.tag = t ∧ Lists (.text t.name :: items) c := by
  have hempty : ∀ f ∈ t.fields, ({} : Parts).holds f = [] := fun f _ => holds_empty f
  rw [ofContent_array]
  constructor
  · intro h
    obtain ⟨p, hfill, h⟩ := Steps.bind_eq_ok_iff.mp h
    obtain ⟨hitems, hne, -⟩ := holds_fillItems hfill t.nodup_fields hempty
    obtain ⟨rfl, hhas⟩ := (change_eq_iff hne).mp (Except.ok.inj h)
    refine ⟨rfl, ?_⟩
    by_cases hall : ∀ f ∈ c.tag.fields, p.holds f = [c.value f]
    · refine .inl (congrArg _ ?_)
      rw [hitems, List.map_eq_flatMap]
      exact List.flatMap_congr hall
    · -- Only the members of a group that is removed may be missing.
      obtain ⟨f, hf, hvalue⟩ : ∃ f ∈ c.tag.fields, p.holds f ≠ [c.value f] := by
        simpa using hall
      obtain ⟨rfl, hms, hnil⟩ := (hhas f hf).resolve_left hvalue
      cases c with
      | groupRemoved g ms =>
        obtain rfl : ms = [] := List.map_eq_nil_iff.mp hms
        have hgroup := (hhas .group List.mem_cons_self).resolve_right nofun
        refine .inr ⟨g, rfl, ?_⟩
        rw [hitems]
        show _ :: (p.holds .group ++ (p.holds .members ++ [])) = _
        rw [hgroup, hnil]
        rfl
      | _ => exact absurd hf (by simp [tag, Tag.fields])
  · rintro ⟨rfl, hall | ⟨g, hg, hitems⟩⟩
    · obtain ⟨p, hfill, hholds⟩ :=
        exists_fillItems (t := c.tag) (i := 0) c c.tag.nodup_fields hempty
      have hne : ∀ f ∈ c.tag.fields, f ≠ .members → p.holds f ≠ [] := fun f hf _ => by
        simp [hholds f hf]
      cases hall
      refine Steps.bind_eq_ok_iff.mpr ⟨p, hfill, ?_⟩
      exact congrArg Except.ok ((change_eq_iff hne).mpr ⟨rfl, fun f hf => .inl (hholds f hf)⟩)
    · subst hg
      cases hitems
      rfl

end

end AccessCache.Change
