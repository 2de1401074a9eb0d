import AccessCache.Fact
import Mathlib.Tactic.SplitIfs

/-!
# Facts and edits

What caches hold is a plain map of texts, and an edit acts on the entry of each query by itself.
An edit absorbs itself when it comes again later, whatever comes between (`Edit.on_on_on`), so
edits that are made again leave no trace of having been made before (`Edit.run_absorb`).
-/

namespace AccessCache

/-! ## Queries -/

theorem Id.map_text_inj {n : Noun} {a b : Option (Id n)} (h : a.map text = b.map text) : a = b := by
  cases a <;> cases b
  · rfl
  · cases h
  · cases h
  · exact congrArg some (text_inj (Option.some.inj h))

namespace Query

def relation : Query → Relation
  | .credential _ => .credential
  | .deviceGroup _ => .deviceGroup
  | .profileGroup _ => .profileGroup
  | .groupOrg _ => .groupOrg
  | .role _ => .role

/-- What a miss calls the entry. -/
def label : Query → String
  | .credential _ => CredentialKey.placeholder
  | .deviceGroup d => d.text
  | .profileGroup p => p.text
  | .groupOrg g => g.text
  | .role k => k.text

/-- The texts that an entry is found by. -/
def texts : Query → List String
  | .credential k => [k.secret]
  | .deviceGroup d => [d.text]
  | .profileGroup p => [p.text]
  | .groupOrg g => [g.text]
  | .role k => [k.group.text, k.member.text]

/-- The entry that holds `a`. -/
def fact : (q : Query) → Id q.noun → Fact
  | .credential k, d => .credential k d
  | .deviceGroup d, g => .deviceGroup d g
  | .profileGroup p, g => .profileGroup p g
  | .groupOrg g, o => .groupOrg g o
  | .role k, r => .role k r

end Query

namespace Fact

def query : Fact → Query
  | .credential k _ => .credential k
  | .deviceGroup d _ => .deviceGroup d
  | .profileGroup p _ => .profileGroup p
  | .groupOrg g _ => .groupOrg g
  | .role k _ => .role k

def text : Fact → String
  | .credential _ d => d.text
  | .deviceGroup _ g => g.text
  | .profileGroup _ g => g.text
  | .groupOrg _ o => o.text
  | .role _ r => r.text

@[simp] theorem query_fact (q : Query) (a : Id q.noun) : (q.fact a).query = q := by
  cases q <;> rfl

@[simp] theorem text_fact (q : Query) (a : Id q.noun) : (q.fact a).text = a.text := by
  cases q <;> rfl

end Fact

/-! ## Edits -/

/-- What caches hold: the text of each entry that there is. -/
abbrev Facts := Query → Option String

/-- Every entry of `F` is one of `G`. -/
def Facts.Within (F G : Facts) : Prop := ∀ q v, F q = some v → G q = some v

inductive Edit where
  | save (fact : Fact)
  | remove (removal : Removal)
  deriving DecidableEq

/-- Whether a removal takes the entry of `q` that holds `v`. -/
def Removal.takes : Removal → Query → String → Bool
  | .credentials d, .credential _, v => v = d.text
  | .deviceGroup d, .deviceGroup d', _ => d' = d
  | .profileGroup p, .profileGroup p', _ => p' = p
  | .groupOrg g, .groupOrg g', _ => g' = g
  | .role k, .role k', _ => k' = k
  | _, _, _ => false

namespace Edit

/-- What an edit makes of the entry of `q`. -/
def on (q : Query) : Edit → Option String → Option String
  | .save f, v => if f.query = q then some f.text else v
  | .remove x, v => v.filter fun t => !x.takes q t

/-- What edits, one after the other, make of the entry of `q`. -/
def run (q : Query) (es : List Edit) (v : Option String) : Option String :=
  es.foldl (fun v e => e.on q v) v

variable {q : Query}

theorem on_save_self (f : Fact) (v : Option String) : (save f).on f.query v = some f.text :=
  if_pos rfl

theorem on_save_of_ne {f : Fact} (h : f.query ≠ q) (v : Option String) : (save f).on q v = v :=
  if_neg h

theorem on_remove_of_not_takes {x : Removal} {v : Option String}
    (h : ∀ t, x.takes q t = false) : (remove x).on q v = v := by
  cases v <;> simp [on, h, Option.filter]

theorem on_remove_credentials (d : DeviceId) (k : CredentialKey) (v : Option DeviceId) :
    (v.filter (· ≠ d)).map Id.text =
      (remove (.credentials d)).on (.credential k) (v.map Id.text) := by
  cases v with
  | none => rfl
  | some d' =>
    by_cases h : d' = d
    · simp [on, Removal.takes, Option.filter, h]
    · have ht : d'.text ≠ d.text := fun h' => h (Id.text_inj h')
      simp [on, Removal.takes, Option.filter, h, ht]

theorem on_remove_credentials_eq (d : DeviceId) (k : CredentialKey) (v : Option String) :
    (remove (.credentials d)).on (.credential k) v = if v = some d.text then none else v := by
  cases v with
  | none => rfl
  | some t => by_cases h : t = d.text <;> simp [on, Removal.takes, Option.filter, h]

theorem on_remove_role (k : RoleKey) (v : Option String) :
    (remove (.role k)).on q v = if q = .role k then none else v := by
  cases q <;> cases v <;> simp [on, Removal.takes, Option.filter]

theorem on_remove_idem (x : Removal) (v : Option String) :
    (remove x).on q ((remove x).on q v) = (remove x).on q v := by
  simp [on, Option.filter_filter]

theorem on_remove_comm (x y : Removal) (v : Option String) :
    (remove x).on q ((remove y).on q v) = (remove y).on q ((remove x).on q v) := by
  simp [on, Option.filter_filter, Bool.and_comm]

/-- An edit absorbs itself, directly after it. -/
theorem on_on (e : Edit) (v : Option String) : e.on q (e.on q v) = e.on q v := by
  cases e with
  | save f => by_cases h : f.query = q <;> simp [on, h]
  | remove x => exact on_remove_idem x v

/-- An edit absorbs itself, with another edit in between. -/
theorem on_on_on (e e' : Edit) (v : Option String) :
    e.on q (e'.on q (e.on q v)) = e.on q (e'.on q v) := by
  cases e with
  | save f => by_cases h : f.query = q <;> simp [on, h]
  | remove x =>
    cases e' with
    | save f => by_cases h : f.query = q <;> simp [on, h, Option.filter_filter]
    | remove y => rw [on_remove_comm x y, on_remove_idem, on_remove_comm x y]

@[simp] theorem run_nil (v : Option String) : run q [] v = v := rfl

@[simp] theorem run_cons (e : Edit) (es : List Edit) (v : Option String) :
    run q (e :: es) v = run q es (e.on q v) := rfl

theorem run_append (es es' : List Edit) (v : Option String) :
    run q (es ++ es') v = run q es' (run q es v) := List.foldl_append

theorem run_of_fixed {es : List Edit} {v : Option String} (h : ∀ e ∈ es, e.on q v = v) :
    run q es v = v := by
  induction es with
  | nil => rfl
  | cons e es ih =>
    obtain ⟨he, hes⟩ := List.forall_mem_cons.mp h
    rw [run_cons, he, ih hes]

theorem run_absorb_one {e : Edit} {es : List Edit} (h : e ∈ es) (v : Option String) :
    run q es (e.on q v) = run q es v := by
  induction es generalizing v with
  | nil => cases h
  | cons e' es ih =>
    rw [run_cons, run_cons]
    by_cases he : e ∈ es
    · -- made again further on: there it absorbs this one with `e'` in between
      rw [← ih he (e'.on q (e.on q v)), on_on_on, ih he]
    · obtain rfl : e = e' := (List.mem_cons.mp h).resolve_right he
      rw [on_on]

/-- Edits that are all made again, in whatever order, leave no trace. -/
theorem run_absorb {es es' : List Edit} (h : es' ⊆ es) (v : Option String) :
    run q es (run q es' v) = run q es v := by
  induction es' generalizing v with
  | nil => rfl
  | cons e es' ih =>
    obtain ⟨he, hes⟩ := List.cons_subset.mp h
    rw [run_cons, ih hes, run_absorb_one he]

/-! ### Saved last -/

/-- The edit neither saves the entry of `q` nor removes it while it holds `t`. -/
def Spares (q : Query) (t : String) : Edit → Prop
  | .save f => f.query ≠ q
  | .remove x => x.takes q t = false

theorem on_eq_some_iff {e : Edit} {v : Option String} {t : String} :
    e.on q v = some t ↔
      (∃ f, e = save f ∧ f.query = q ∧ f.text = t) ∨ v = some t ∧ e.Spares q t := by
  cases e with
  | save f =>
    by_cases hq : f.query = q
    · subst hq
      rw [on_save_self]
      simp [Spares]
    · rw [on_save_of_ne hq]
      simp [Spares, hq]
  | remove x => simp [on, Spares, Option.filter_eq_some_iff]

/-- An entry that holds `t` in the end did so from the beginning, or since it was saved last. -/
theorem run_eq_some_iff {es : List Edit} {v : Option String} {t : String} :
    run q es v = some t ↔ (v = some t ∧ ∀ e ∈ es, e.Spares q t) ∨
      ∃ before f after, es = before ++ save f :: after ∧ f.query = q ∧ f.text = t ∧
        ∀ e ∈ after, e.Spares q t := by
  induction es generalizing v with
  | nil => simp
  | cons e es ih =>
    rw [run_cons, ih, on_eq_some_iff, List.forall_mem_cons]
    constructor
    · rintro (⟨⟨f, rfl, hq, ht⟩ | ⟨hv, he⟩, hes⟩ | ⟨before, f, after, rfl, hf⟩)
      · exact .inr ⟨[], f, es, rfl, hq, ht, hes⟩
      · exact .inl ⟨hv, he, hes⟩
      · exact .inr ⟨e :: before, f, after, rfl, hf⟩
    · rintro (⟨hv, he, hes⟩ | ⟨before, f, after, heq, hq, ht, hafter⟩)
      · exact .inl ⟨.inr ⟨hv, he⟩, hes⟩
      · cases before with
        | nil =>
          obtain ⟨rfl, rfl⟩ := List.cons.inj heq
          exact .inl ⟨.inl ⟨f, rfl, hq, ht⟩, hafter⟩
        | cons e' before =>
          obtain ⟨rfl, rfl⟩ := List.cons.inj heq
          exact .inr ⟨before, f, after, rfl, hq, ht, hafter⟩

/-! ### Removing roles -/

theorem run_roles_none {es : List Edit} (h : ∀ e ∈ es, ∃ k, e = remove (.role k)) :
    run q es none = none := by
  induction es with
  | nil => rfl
  | cons e es ih =>
    obtain ⟨⟨k, rfl⟩, hes⟩ := List.forall_mem_cons.mp h
    exact ih hes

/-- The entry of a role that is removed among others is gone. -/
theorem run_roles_of_mem {es : List Edit} {k : RoleKey}
    (h : ∀ e ∈ es, ∃ k, e = remove (.role k)) (hk : remove (.role k) ∈ es) (v : Option String) :
    run (.role k) es v = none := by
  rw [← run_absorb_one hk, on_remove_role, if_pos rfl, run_roles_none h]

/-- Other entries stay. -/
theorem run_roles_of_not_mem {es : List Edit} (h : ∀ e ∈ es, ∃ k, e = remove (.role k))
    (hq : ∀ k, q = .role k → remove (.role k) ∉ es) (v : Option String) : run q es v = v := by
  induction es with
  | nil => rfl
  | cons e es ih =>
    obtain ⟨⟨k, rfl⟩, hes⟩ := List.forall_mem_cons.mp h
    have hne : q ≠ .role k := fun h => hq k h List.mem_cons_self
    rw [run_cons, on_remove_role, if_neg hne]
    exact ih hes fun k' hk' hmem => hq k' hk' (List.mem_cons_of_mem _ hmem)

end Edit

/-- The facts after an edit. -/
def Facts.edit (e : Edit) (F : Facts) : Facts := fun q => e.on q (F q)

/-! ## Lost entries -/

/-- The entry is as it should be, or lost where entries may be. -/
def Kept (lossy : Prop) (a b : Option String) : Prop := a = b ∨ lossy ∧ a = none

namespace Kept

variable {lossy : Prop} {a b c : Option String}

theorem refl (a : Option String) : Kept lossy a a := .inl rfl

theorem trans (hab : Kept lossy a b) (hbc : Kept lossy b c) : Kept lossy a c := by
  rcases hab with rfl | ⟨hl, rfl⟩
  · exact hbc
  · exact .inr ⟨hl, rfl⟩

theorem on (h : Kept lossy a b) (q : Query) (e : Edit) : Kept lossy (e.on q a) (e.on q b) := by
  rcases h with rfl | ⟨hl, rfl⟩
  · exact refl _
  · cases e with
    | save f => by_cases hf : f.query = q <;> simp [Edit.on, hf, Kept, hl]
    | remove x => exact .inr ⟨hl, rfl⟩

theorem run (h : Kept lossy a b) (q : Query) (es : List Edit) :
    Kept lossy (Edit.run q es a) (Edit.run q es b) := by
  induction es generalizing a b with
  | nil => exact h
  | cons e es ih => exact ih (h.on q e)

theorem mono {lossy' : Prop} (h : Kept lossy a b) (hl : lossy → lossy') : Kept lossy' a b :=
  h.imp_right (And.imp_left hl)

theorem eq_of_not (hl : ¬ lossy) (h : Kept lossy a b) : a = b := h.resolve_right fun h => hl h.1

theorem eq_some (h : Kept lossy a b) {v : String} (ha : a = some v) : b = some v := by
  rcases h with rfl | ⟨_, hn⟩
  · exact ha
  · rw [hn] at ha
    cases ha

theorem of_forall (h : ∀ v, a = some v → b = some v) : Kept True a b := by
  cases a with
  | none => exact .inr ⟨trivial, rfl⟩
  | some v => exact .inl (h v rfl).symm

end Kept

theorem Facts.within_iff_kept {F G : Facts} : F.Within G ↔ ∀ q, Kept True (F q) (G q) :=
  ⟨fun h q => .of_forall (h q), fun h q _ hv => (h q).eq_some hv⟩

theorem Facts.Within.trans {F G H : Facts} (hFG : F.Within G) (hGH : G.Within H) : F.Within H :=
  fun q v hv => hGH q v (hFG q v hv)

theorem Facts.Within.edit {F G : Facts} (h : F.Within G) (e : Edit) :
    (F.edit e).Within (G.edit e) :=
  within_iff_kept.mpr fun q => (within_iff_kept.mp h q).on q e

/-! ## Known texts -/

def Fact.texts (f : Fact) : List String := f.text :: f.query.texts

theorem Query.known_fact {known : String → Prop} {q : Query} {v : Id q.noun} (hv : known v.text)
    (hq : ∀ t ∈ q.texts, known t) : ∀ t ∈ (q.fact v).texts, known t := by
  rw [Fact.texts, Fact.text_fact, Fact.query_fact]
  exact List.forall_mem_cons.mpr ⟨hv, hq⟩

def Removal.texts : Removal → List String
  | .credentials d => [d.text]
  | .deviceGroup d => [d.text]
  | .profileGroup p => [p.text]
  | .groupOrg g => [g.text]
  | .role k => [k.group.text, k.member.text]

def Edit.texts : Edit → List String
  | .save f => f.texts
  | .remove x => x.texts

/-- All texts in the facts are known. -/
def Facts.Known (known : String → Prop) (F : Facts) : Prop :=
  ∀ q v, F q = some v → known v ∧ ∀ t ∈ q.texts, known t

theorem Facts.known_empty (known : String → Prop) : Facts.Known known fun _ => none := nofun

theorem Facts.known_true (F : Facts) : F.Known fun _ => True :=
  fun _ _ _ => ⟨trivial, fun _ _ => trivial⟩

theorem Facts.Known.of_kept {known : String → Prop} {lossy : Prop} {e : Edit} {F F' : Facts}
    (h : F.Known known) (he : ∀ t ∈ e.texts, known t)
    (hF' : ∀ q, Kept lossy (F' q) (e.on q (F q))) : F'.Known known := by
  intro q v hv
  have hon := (hF' q).eq_some hv
  cases e with
  | save f =>
    by_cases hq : f.query = q
    · subst hq
      rw [Edit.on_save_self] at hon
      cases hon
      exact ⟨he _ List.mem_cons_self, fun t ht => he t (List.mem_cons_of_mem _ ht)⟩
    · rw [Edit.on_save_of_ne hq] at hon
      exact h q v hon
  | remove x => exact h q v (Option.filter_eq_some_iff.mp hon).1

/-- Edits add no texts but their own. -/
theorem Facts.Known.run {known : String → Prop} {es : List Edit} {F : Facts} (h : F.Known known)
    (hes : ∀ e ∈ es, ∀ t ∈ e.texts, known t) : Facts.Known known fun q => Edit.run q es (F q) := by
  induction es generalizing F with
  | nil => exact h
  | cons e es ih =>
    obtain ⟨he, hes⟩ := List.forall_mem_cons.mp hes
    have hkept : ∀ q, Kept False (F.edit e q) (e.on q (F q)) := fun q => .refl _
    exact ih (h.of_kept he hkept) hes

end AccessCache
