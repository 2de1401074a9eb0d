import AccessCache.Proofs.Facts
import AccessCache.Proofs.Lawful

/-!
# Regular caches

What the calls of a set of caches mean for the facts that it holds. A lookup answers as the facts
say, an edit does to the facts what it should or fails without effect, and the counters and the
numbers of entries follow. A set of caches may lose entries, but only where texts share a place
(`Edit.Effect.kept`).
-/

namespace AccessCache

variable {σ : Type}

/-! ## Reading caches -/

namespace Caches

variable (c : Caches σ) (s : σ)

/-- The facts that lookups would find. -/
def facts : Facts := fun q =>
  match ((c.lookup q).act s).value with
  | .ok a => some a.text
  | .error _ => none

variable {c s} in
theorem facts_of_lookup {q : Query} {v : Id q.noun} (h : ((c.lookup q).act s).value = .ok v) :
    c.facts s q = some v.text := by
  unfold facts
  rw [h]

def edit : Edit → Call σ Unit
  | .save f => c.save f
  | .remove x => c.remove x

def statisticsOf : Relation → Statistics
  | .credential => c.credentials.statistics s
  | .deviceGroup => c.deviceGroups.statistics s
  | .profileGroup => c.profileGroups.statistics s
  | .groupOrg => c.groupOrgs.statistics s
  | .role => c.roles.statistics s

theorem statistics_eq_map :
    c.statistics s = Relation.all.map fun r => (r, c.statisticsOf s r) := rfl

def counters (r : Relation) : Counters := ⟨(c.statisticsOf s r).hits, (c.statisticsOf s r).misses⟩

end Caches

/-- What a lookup answers where the caches hold `v`. -/
def Query.reply (q : Query) : Option String → Except CacheError (Id q.noun)
  | some t => .ok ⟨t⟩
  | none => .error (.notFound q.relation q.label)

theorem Query.reply_eq_ok_iff {q : Query} {v : Option String} {a : Id q.noun} :
    q.reply v = .ok a ↔ v = some a.text := by
  cases v with
  | none => exact iff_of_false nofun nofun
  | some t =>
    rw [Option.some.injEq]
    constructor
    · rintro ⟨⟩
      rfl
    · rintro rfl
      rfl

/-- The entries of two queries stand in the same place. -/
def Query.Clash (shared : String → String → Prop) : Query → Query → Prop
  | .credential k, .credential k' => shared k.secret k'.secret
  | .deviceGroup d, .deviceGroup d' => shared d.text d'.text
  | .profileGroup p, .profileGroup p' => shared p.text p'.text
  | .groupOrg g, .groupOrg g' => shared g.text g'.text
  | .role k, .role k' => k.Clash shared k'
  | _, _ => False

/-- The one entry that an edit writes to, where there is one. -/
def Edit.target : Edit → Option Query
  | .save f => some f.query
  | .remove (.credentials _) => none
  | .remove (.deviceGroup d) => some (.deviceGroup d)
  | .remove (.profileGroup p) => some (.profileGroup p)
  | .remove (.groupOrg g) => some (.groupOrg g)
  | .remove (.role k) => some (.role k)

/-- From `F` an edit leads to `F'`, with entries lost only to the place of its target. -/
def Edit.Effect (shared : String → String → Prop) (e : Edit) (F F' : Facts) : Prop :=
  ∀ q, F' q = e.on q (F q) ∨ F' q = none ∧ ∃ q' ∈ e.target, q' ≠ q ∧ q'.Clash shared q

/-- The edit took place, or it failed and changed nothing. -/
def Edit.Done (shared : String → String → Prop) (good : σ → Prop) (facts : σ → Facts)
    (counters : σ → Relation → Counters) (e : Edit) (s : σ)
    (o : Outcome σ (Except CacheError Unit)) : Prop :=
  (o.value = .ok () ∧ good o.state ∧ e.Effect shared (facts s) (facts o.state) ∧
      counters o.state = counters s) ∨
    (∃ err, o.value = .error err) ∧ o.state = s

/-- Caches whose calls keep `good` and do what they should to the facts. -/
structure Caches.Regular (c : Caches σ) (good : σ → Prop) (shared : String → String → Prop) :
    Prop where
  lookup_value : ∀ {s}, good s → ∀ q, ((c.lookup q).act s).value = q.reply (c.facts s q)
  lookup_good : ∀ {s}, good s → ∀ q, good ((c.lookup q).act s).state
  lookup_facts : ∀ {s}, good s → ∀ q, c.facts ((c.lookup q).act s).state = c.facts s
  lookup_counters : ∀ {s}, good s → ∀ q r, c.counters ((c.lookup q).act s).state r =
    if r = q.relation then (c.counters s r).record (c.facts s q).isSome else c.counters s r
  edit : ∀ {s}, good s → ∀ e : Edit, e.Done shared good c.facts c.counters s ((c.edit e).act s)
  memberships : ∀ {s}, good s → ∀ m, ∃ gs, ((c.roles.membershipsOf m).act s).value = .ok gs ∧
    ((c.roles.membershipsOf m).act s).state = s ∧ ∀ g, g ∈ gs ↔ (c.facts s (.role ⟨g, m⟩)).isSome
  entries : ∀ {s}, good s → ∀ r, Counts (c.statisticsOf s r).entries
    fun q => if q.relation = r then c.facts s q else none

/-- No edit fails in a good state. -/
def Caches.Total (c : Caches σ) (good : σ → Prop) : Prop :=
  ∀ {s}, good s → ∀ e, ((c.edit e).act s).value = .ok ()

/-! ## Edits with a target -/

namespace Edit

/-- What an edit leaves at its target. -/
def written : Edit → Option String
  | .save f => some f.text
  | .remove _ => none

theorem on_of_target {e : Edit} {q₀ : Query} (h : e.target = some q₀) (q : Query)
    (v : Option String) : e.on q v = if q = q₀ then e.written else v := by
  cases e with
  | save f =>
    cases h
    by_cases hq : f.query = q
    · subst hq
      simp [on, written]
    · simp [on, hq, Ne.symm hq]
  | remove x =>
    cases x with
    | credentials d => cases h
    | _ =>
      cases h
      cases q <;> cases v <;> simp [on, written, Removal.takes, Option.filter]

/-- A write to one table is an edit of the facts; `toQuery` says which queries the table answers. -/
theorem Effect.of_placed {κ ν : Type} {shared : String → String → Prop} {clash : κ → κ → Prop}
    {f f' : κ → Option ν} {F F' : Facts} {e : Edit} {k : κ} {v : Option ν} {text : ν → String}
    (toQuery : κ → Query) (h : Placed clash k v f f') (htarget : e.target = some (toQuery k))
    (hwritten : e.written = v.map text) (hF : ∀ k, F (toQuery k) = (f k).map text)
    (hF' : ∀ k, F' (toQuery k) = (f' k).map text) (hrest : ∀ q, (∀ k, q ≠ toQuery k) → F' q = F q)
    (hclash : ∀ k', clash k k' → (toQuery k).Clash shared (toQuery k')) : e.Effect shared F F' := by
  intro q
  rw [on_of_target htarget]
  by_cases hq : ∃ k', q = toQuery k'
  · obtain ⟨k', rfl⟩ := hq
    by_cases hk : toQuery k' = toQuery k
    · rw [if_pos hk, hk, hF', h.self]
      exact .inl hwritten.symm
    · rw [if_neg hk, hF, hF']
      have hne : k' ≠ k := fun h => hk (congrArg toQuery h)
      rcases h.other k' hne with hother | ⟨hc, hnone⟩
      · rw [hother]
        exact .inl rfl
      · rw [hnone]
        exact .inr ⟨rfl, toQuery k, htarget, Ne.symm hk, hclash k' hc⟩
  · have hq' : ∀ k', q ≠ toQuery k' := fun k' h => hq ⟨k', h⟩
    rw [if_neg (hq' k), hrest q hq']
    exact .inl rfl

end Edit

/-! ## What edits may lose -/

/-- Different texts that are known may share a place. -/
def Lossy (shared : String → String → Prop) (known : String → Prop) : Prop :=
  ∃ s t, known s ∧ known t ∧ s ≠ t ∧ shared s t

theorem not_lossy_eq (known : String → Prop) : ¬ Lossy Eq known :=
  fun ⟨_, _, _, _, hne, h⟩ => hne h

variable {shared : String → String → Prop} {known : String → Prop}

theorem RoleKey.Clash.lossy {k k' : RoleKey} (hne : k ≠ k') (h : k.Clash shared k')
    (hk : ∀ t ∈ (Query.role k).texts, known t) (hk' : ∀ t ∈ (Query.role k').texts, known t) :
    Lossy shared known := by
  simp only [Query.texts, List.mem_cons, List.not_mem_nil, or_false, forall_eq_or_imp,
    forall_eq] at hk hk'
  by_cases hg : k.group = k'.group
  · by_cases hm : k.member = k'.member
    · cases k
      cases k'
      cases hg
      cases hm
      exact absurd rfl hne
    · exact ⟨_, _, hk.2, hk'.2, fun h => hm (Id.text_inj h), h.2⟩
  · exact ⟨_, _, hk.1, hk'.1, fun h => hg (Id.text_inj h), h.1⟩

theorem Query.Clash.lossy {q q' : Query} (hne : q ≠ q') (h : q.Clash shared q')
    (hk : ∀ t ∈ q.texts, known t) (hk' : ∀ t ∈ q'.texts, known t) : Lossy shared known := by
  cases q <;> cases q' <;> try exact h.elim
  case credential k k' =>
    exact ⟨_, _, hk _ List.mem_cons_self, hk' _ List.mem_cons_self,
      fun h => hne (congrArg _ (CredentialKey.secret_inj h)), h⟩
  case role k k' => exact RoleKey.Clash.lossy (fun h => hne (congrArg _ h)) h hk hk'
  all_goals
    exact ⟨_, _, hk _ List.mem_cons_self, hk' _ List.mem_cons_self,
      fun h => hne (congrArg _ (Id.text_inj h)), h⟩

theorem Edit.texts_of_target {e : Edit} {q : Query} (h : e.target = some q) :
    ∀ t ∈ q.texts, t ∈ e.texts := by
  intro t ht
  cases e with
  | save f =>
    cases h
    exact List.mem_cons_of_mem _ ht
  | remove x =>
    cases x <;> cases h <;> exact ht

/-- Among known texts an edit loses an entry only where two of them share a place. -/
theorem Edit.Effect.kept {e : Edit} {F F' : Facts} (h : e.Effect shared F F')
    (hF : F.Known known) (he : ∀ t ∈ e.texts, known t) (q : Query) :
    Kept (Lossy shared known) (F' q) (e.on q (F q)) := by
  rcases h q with heq | ⟨hnone, q', htarget, hne, hclash⟩
  · exact .inl heq
  · cases hv : F q with
    | none =>
      rw [Edit.on_of_target htarget, if_neg hne.symm]
      exact .inl hnone
    | some v =>
      have hq' : ∀ t ∈ q'.texts, known t := fun t ht => he t (Edit.texts_of_target htarget t ht)
      exact .inr ⟨hclash.lossy hne hq' (hF q v hv).2, hnone⟩

theorem Edit.Effect.within {e : Edit} {F F' : Facts} (h : e.Effect shared F F') :
    F'.Within (F.edit e) := by
  intro q v hv
  rcases h q with heq | ⟨hnone, _⟩
  · exact heq.symm.trans hv
  · rw [hnone] at hv
    cases hv

/-! ## Runs of edits -/

namespace Caches

/-- The state after edits, each of which takes place or fails. -/
def after (c : Caches σ) (es : List Edit) (s : σ) : σ :=
  es.foldl (fun s e => ((c.edit e).act s).state) s

namespace Regular

variable {c : Caches σ} {good : σ → Prop} {s : σ}

theorem edit_good (h : c.Regular good shared) (hs : good s) (e : Edit) :
    good ((c.edit e).act s).state := by
  rcases h.edit hs e with ⟨_, hgood, _⟩ | ⟨_, hsame⟩
  · exact hgood
  · rw [hsame]
    exact hs

theorem after_good (h : c.Regular good shared) (hs : good s) (es : List Edit) :
    good (c.after es s) := by
  induction es generalizing s with
  | nil => exact hs
  | cons e es ih => exact ih (h.edit_good hs e)

/-- Where no edit fails and nothing is lost, each entry is what the edits make of it. -/
theorem facts_after (h : c.Regular good shared) (ht : c.Total good)
    (hkeeps : ¬ Lossy shared fun _ => True) (hs : good s) (es : List Edit) :
    c.facts (c.after es s) = fun q => Edit.run q es (c.facts s q) := by
  induction es generalizing s with
  | nil => rfl
  | cons e es ih =>
    refine (ih (h.edit_good hs e)).trans ?_
    funext q
    rcases h.edit hs e with ⟨_, _, heffect, _⟩ | ⟨⟨err, hfail⟩, _⟩
    · have hkept := heffect.kept (c.facts s).known_true (fun _ _ => trivial) q
      rw [hkept.eq_of_not hkeeps, Edit.run_cons]
    · rw [ht hs e] at hfail
      cases hfail

end Regular

end Caches

end AccessCache
