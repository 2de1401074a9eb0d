import AccessCache.Proofs.Regular

/-!
# Caches over tables

Caches over lawful tables are regular (`Tables.regular`). Each table keeps the entries of the
queries of one relation, and what is done to it does nothing to the others (`Tables.Column`).
-/

namespace AccessCache.Tables

variable {C R : Type} {L : Noun → Noun → Type}

/-- The tables of a state, each of them good. -/
structure Good (gc : C → Prop) (gl : (c p : Noun) → L c p → Prop) (gr : R → Prop)
    (s : Tables C L R) : Prop where
  credentials : gc s.credentials.table
  deviceGroups : gl _ _ s.deviceGroups.table
  profileGroups : gl _ _ s.profileGroups.table
  groupOrgs : gl _ _ s.groupOrgs.table
  roles : gr s.roles.table

/-- The facts that views of the tables show. -/
def view (vc : C → CredentialKey → Option DeviceId)
    (vl : (c p : Noun) → L c p → Id c → Option (Id p)) (vr : R → RoleKey → Option Role)
    (s : Tables C L R) : Facts
  | .credential k => (vc s.credentials.table k).map Id.text
  | .deviceGroup d => (vl _ _ s.deviceGroups.table d).map Id.text
  | .profileGroup p => (vl _ _ s.profileGroups.table p).map Id.text
  | .groupOrg g => (vl _ _ s.groupOrgs.table g).map Id.text
  | .role k => (vr s.roles.table k).map Id.text

/-- The counters of the cache of each relation. -/
def countersOf (s : Tables C L R) : Relation → Counters
  | .credential => s.credentials.counters
  | .deviceGroup => s.deviceGroups.counters
  | .profileGroup => s.profileGroups.counters
  | .groupOrg => s.groupOrgs.counters
  | .role => s.roles.counters

/-- A state with the lookup of `q` counted. -/
def counted (s : Tables C L R) (found : Bool) : Query → Tables C L R
  | .credential _ => { s with credentials.counters := s.credentials.counters.record found }
  | .deviceGroup _ => { s with deviceGroups.counters := s.deviceGroups.counters.record found }
  | .profileGroup _ => { s with profileGroups.counters := s.profileGroups.counters.record found }
  | .groupOrg _ => { s with groupOrgs.counters := s.groupOrgs.counters.record found }
  | .role _ => { s with roles.counters := s.roles.counters.record found }

variable {ct : CredentialTable C} {lt : (c p : Noun) → LinkTable (L c p) c p} {rt : RoleTable R}
  {gc : C → Prop} {gl : (c p : Noun) → L c p → Prop} {gr : R → Prop}
  {vc : C → CredentialKey → Option DeviceId} {vl : (c p : Noun) → L c p → Id c → Option (Id p)}
  {vr : R → RoleKey → Option Role} {shared : String → String → Prop} {s : Tables C L R}

@[simp] theorem view_counted (found : Bool) (q : Query) :
    view vc vl vr (s.counted found q) = view vc vl vr s := by
  cases q <;> rfl

theorem Good.counted (h : Good gc gl gr s) (found : Bool) (q : Query) :
    Good gc gl gr (s.counted found q) := by
  cases q <;> exact ⟨h.1, h.2, h.3, h.4, h.5⟩

theorem countersOf_counted (found : Bool) (q : Query) (r : Relation) :
    (s.counted found q).countersOf r =
      if r = q.relation then (s.countersOf r).record found else s.countersOf r := by
  cases q <;> cases r <;> rfl

theorem counters_eq : (caches ct lt rt).counters s = s.countersOf := by
  funext r
  cases r <;> rfl

section Lookups

variable (hc : ct.Lawful gc vc shared) (hl : ∀ c p, (lt c p).Lawful (gl c p) (vl c p) shared)
  (hr : rt.Lawful gr vr shared)

include hc hl hr

theorem lookup_act (h : Good gc gl gr s) (q : Query) :
    (((caches ct lt rt).lookup q).act s).value = q.reply (view vc vl vr s q) ∧
      (((caches ct lt rt).lookup q).act s).state = s.counted (view vc vl vr s q).isSome q := by
  cases q with
  | credential k =>
    have hact := Counted.lookup_act .credential CredentialKey.placeholder .credentialLookedUp
      (hc.find h.credentials k)
    refine ⟨hact.1.trans ?_, (congrArg (credentialPart.set · s) hact.2).trans ?_⟩ <;>
      simp only [view] <;> cases vc s.credentials.table k <;> rfl
  | deviceGroup d =>
    have hact := Counted.lookup_act .deviceGroup d.text (.linkLookedUp .deviceGroup d.text)
      ((hl _ _).find h.deviceGroups d)
    refine ⟨hact.1.trans ?_, (congrArg (devicePart.set · s) hact.2).trans ?_⟩ <;>
      simp only [view] <;> cases vl _ _ s.deviceGroups.table d <;> rfl
  | profileGroup p =>
    have hact := Counted.lookup_act .profileGroup p.text (.linkLookedUp .profileGroup p.text)
      ((hl _ _).find h.profileGroups p)
    refine ⟨hact.1.trans ?_, (congrArg (profilePart.set · s) hact.2).trans ?_⟩ <;>
      simp only [view] <;> cases vl _ _ s.profileGroups.table p <;> rfl
  | groupOrg g =>
    have hact := Counted.lookup_act .groupOrg g.text (.linkLookedUp .groupOrg g.text)
      ((hl _ _).find h.groupOrgs g)
    refine ⟨hact.1.trans ?_, (congrArg (orgPart.set · s) hact.2).trans ?_⟩ <;>
      simp only [view] <;> cases vl _ _ s.groupOrgs.table g <;> rfl
  | role k =>
    have hact := Counted.lookup_act .role k.text (.roleLookedUp k) (hr.find h.roles k)
    refine ⟨hact.1.trans ?_, (congrArg (rolePart.set · s) hact.2).trans ?_⟩ <;>
      simp only [view] <;> cases vr s.roles.table k <;> rfl

theorem facts_eq (h : Good gc gl gr s) : (caches ct lt rt).facts s = view vc vl vr s := by
  funext q
  rw [Caches.facts, (lookup_act hc hl hr h q).1]
  cases view vc vl vr s q <;> rfl

end Lookups

/-! ## Columns -/

/-- The table that keeps the entries of some of the queries. -/
structure Column (vc : C → CredentialKey → Option DeviceId)
    (vl : (c p : Noun) → L c p → Id c → Option (Id p)) (vr : R → RoleKey → Option Role)
    (shared : String → String → Prop) (τ κ : Type) (n : Noun) where
  relation : Relation
  part : Part (Tables C L R) (Counted τ)
  query : κ → Query
  values : τ → κ → Option (Id n)
  clash : κ → κ → Prop
  view_query : ∀ s k, view vc vl vr s (query k) = (values (part.get s).table k).map Id.text
  view_other : ∀ s t q, (∀ k, q ≠ query k) →
    view vc vl vr (part.set { part.get s with table := t } s) q = view vc vl vr s q
  countersOf : ∀ s t, (part.set { part.get s with table := t } s).countersOf = s.countersOf
  clash_query : ∀ k k', clash k k' → (query k).Clash shared (query k')
  query_inj : ∀ k l, query k = query l → k = l
  relation_iff : ∀ q : Query, q.relation = relation ↔ ∃ k, q = query k

def credentialColumn : Column vc vl vr shared C CredentialKey .device where
  relation := .credential
  part := credentialPart
  query := .credential
  values := vc
  clash k k' := shared k.secret k'.secret
  view_query _ _ := rfl
  view_other s t q hq := by cases q <;> first | rfl | exact absurd rfl (hq _)
  countersOf s t := by funext r; cases r <;> rfl
  clash_query _ _ := id
  query_inj _ _ h := by cases h; rfl
  relation_iff q := by cases q <;> simp [Query.relation]

def deviceColumn : Column vc vl vr shared (L .device .group) DeviceId .group where
  relation := .deviceGroup
  part := devicePart
  query := .deviceGroup
  values := vl _ _
  clash k k' := shared k.text k'.text
  view_query _ _ := rfl
  view_other s t q hq := by cases q <;> first | rfl | exact absurd rfl (hq _)
  countersOf s t := by funext r; cases r <;> rfl
  clash_query _ _ := id
  query_inj _ _ h := by cases h; rfl
  relation_iff q := by cases q <;> simp [Query.relation]

def profileColumn : Column vc vl vr shared (L .profile .group) ProfileId .group where
  relation := .profileGroup
  part := profilePart
  query := .profileGroup
  values := vl _ _
  clash k k' := shared k.text k'.text
  view_query _ _ := rfl
  view_other s t q hq := by cases q <;> first | rfl | exact absurd rfl (hq _)
  countersOf s t := by funext r; cases r <;> rfl
  clash_query _ _ := id
  query_inj _ _ h := by cases h; rfl
  relation_iff q := by cases q <;> simp [Query.relation]

def orgColumn : Column vc vl vr shared (L .group .org) GroupId .org where
  relation := .groupOrg
  part := orgPart
  query := .groupOrg
  values := vl _ _
  clash k k' := shared k.text k'.text
  view_query _ _ := rfl
  view_other s t q hq := by cases q <;> first | rfl | exact absurd rfl (hq _)
  countersOf s t := by funext r; cases r <;> rfl
  clash_query _ _ := id
  query_inj _ _ h := by cases h; rfl
  relation_iff q := by cases q <;> simp [Query.relation]

def roleColumn : Column vc vl vr shared R RoleKey .role where
  relation := .role
  part := rolePart
  query := .role
  values := vr
  clash := RoleKey.Clash shared
  view_query _ _ := rfl
  view_other s t q hq := by cases q <;> first | rfl | exact absurd rfl (hq _)
  countersOf s t := by funext r; cases r <;> rfl
  clash_query _ _ := id
  query_inj _ _ h := by cases h; rfl
  relation_iff q := by cases q <;> simp [Query.relation]

namespace Column

variable {τ κ α : Type} {n : Noun} (col : Column vc vl vr shared τ κ n)

/-- A change that writes to one key of a column is the edit with that target. -/
theorem done {e : Edit} (k : κ) (v : Option (Id n)) (entry : α → Entry)
    (f : τ → Except StoreError (α × τ)) (htarget : e.target = some (col.query k))
    (hwritten : e.written = v.map Id.text)
    (hf : ∀ a t, f (col.part.get s).table = .ok (a, t) →
      Good gc gl gr (col.part.set { col.part.get s with table := t } s) ∧
        Placed col.clash k v (col.values (col.part.get s).table) (col.values t)) :
    e.Done shared (Good gc gl gr) (view vc vl vr) Tables.countersOf s
      (((Counted.change col.relation entry f).on col.part).act s) := by
  rcases Counted.change_on col.relation col.part entry f s with ⟨a, t, hok, hvalue, hstate⟩ | hfail
  · obtain ⟨hgood, hplaced⟩ := hf a t hok
    refine .inl ⟨hvalue, ?_⟩
    rw [hstate]
    refine ⟨hgood, ?_, col.countersOf s t⟩
    refine .of_placed col.query hplaced htarget hwritten (col.view_query s) ?_ (col.view_other s t)
      (col.clash_query k)
    intro k'
    rw [col.view_query, col.part.get_set]
  · exact .inr hfail

end Column

/-! ## Calls -/

/-- Removing a device's keys filters the credentials by their value. -/
theorem remove_credentials_done (hc : ct.Lawful gc vc shared) (h : Good gc gl gr s) (d : DeviceId) :
    (Edit.remove (.credentials d)).Done shared (Good gc gl gr) (view vc vl vr) countersOf s
      (((caches ct lt rt).remove (.credentials d)).act s) := by
  obtain ⟨n, t, hok, hgood, hfilter, _⟩ := hc.remove h.credentials d
  have hact := Counted.change_act .credential (.credentialsRemoved d) hok
  have hstate : (((caches ct lt rt).remove (.credentials d)).act s).state =
      credentialPart.set { s.credentials with table := t } s :=
    congrArg (credentialPart.set · s) hact.2
  refine .inl ⟨hact.1, ?_⟩
  rw [hstate]
  refine ⟨{ h with credentials := hgood }, fun q => .inl ?_, ?_⟩
  · cases q with
    | credential k =>
      show (vc t k).map Id.text = _
      rw [hfilter]
      exact Edit.on_remove_credentials d k _
    | _ => exact (Edit.on_remove_of_not_takes fun _ => rfl).symm
  · funext r
    cases r <;> rfl

theorem memberships_act (hr : rt.Lawful gr vr shared) (h : Good gc gl gr s) (m : MemberId) :
    ∃ gs, (((caches ct lt rt).roles.membershipsOf m).act s).value = .ok gs ∧
      (((caches ct lt rt).roles.membershipsOf m).act s).state = s ∧
      ∀ g, g ∈ gs ↔ (view vc vl vr s (.role ⟨g, m⟩)).isSome := by
  obtain ⟨gs, hok, hmem⟩ := hr.memberships h.roles m
  have hact := Counted.query_act .role hok
  refine ⟨gs, hact.1, (congrArg (rolePart.set · s) hact.2).trans (rolePart.set_get s), fun g => ?_⟩
  simp [view, hmem]

/-- The entries of a relation are those of its column. -/
theorem Column.counts {τ κ : Type} {n : Noun} (col : Column vc vl vr shared τ κ n) {m : Nat}
    (h : Counts m (col.values (col.part.get s).table)) :
    Counts m fun q => if q.relation = col.relation then view vc vl vr s q else none := by
  refine h.image col.query_inj (fun k => ?_) fun q hq => ?_
  · rw [if_pos ((col.relation_iff _).mpr ⟨k, rfl⟩), col.view_query, Option.isSome_map]
  · refine if_neg fun hr => ?_
    obtain ⟨k, hk⟩ := (col.relation_iff q).mp hr
    exact hq k hk

section Edits

variable (hc : ct.Lawful gc vc shared) (hl : ∀ c p, (lt c p).Lawful (gl c p) (vl c p) shared)
  (hr : rt.Lawful gr vr shared)

include hc hl hr

theorem save_done (h : Good gc gl gr s) (f : Fact) :
    (Edit.save f).Done shared (Good gc gl gr) (view vc vl vr) countersOf s
      (((caches ct lt rt).save f).act s) := by
  cases f with
  | credential k d =>
    refine credentialColumn.done k (some d) (fun _ => .credentialSaved d)
      (fun t => (((), ·)) <$> ct.save k d t) rfl rfl fun _ t hok => ?_
    obtain ⟨hgood, hplaced⟩ := hc.save h.credentials (Counted.of_map_unit hok)
    exact ⟨{ h with credentials := hgood }, hplaced⟩
  | deviceGroup d g =>
    refine deviceColumn.done d (some g)
      (fun _ => .linkSaved .deviceGroup d.text g.text)
      (fun t => (((), ·)) <$> (lt _ _).save d g t) rfl rfl fun _ t hok => ?_
    obtain ⟨hgood, hplaced⟩ := (hl _ _).save h.deviceGroups (Counted.of_map_unit hok)
    exact ⟨{ h with deviceGroups := hgood }, hplaced⟩
  | profileGroup p g =>
    refine profileColumn.done p (some g)
      (fun _ => .linkSaved .profileGroup p.text g.text)
      (fun t => (((), ·)) <$> (lt _ _).save p g t) rfl rfl fun _ t hok => ?_
    obtain ⟨hgood, hplaced⟩ := (hl _ _).save h.profileGroups (Counted.of_map_unit hok)
    exact ⟨{ h with profileGroups := hgood }, hplaced⟩
  | groupOrg g o =>
    refine orgColumn.done g (some o) (fun _ => .linkSaved .groupOrg g.text o.text)
      (fun t => (((), ·)) <$> (lt _ _).save g o t) rfl rfl fun _ t hok => ?_
    obtain ⟨hgood, hplaced⟩ := (hl _ _).save h.groupOrgs (Counted.of_map_unit hok)
    exact ⟨{ h with groupOrgs := hgood }, hplaced⟩
  | role k r =>
    refine roleColumn.done k (some r) (fun _ => .roleSaved k r)
      (fun t => (((), ·)) <$> rt.save k r t) rfl rfl fun _ t hok => ?_
    obtain ⟨hgood, hplaced⟩ := hr.save h.roles (Counted.of_map_unit hok)
    exact ⟨{ h with roles := hgood }, hplaced⟩

theorem remove_done (h : Good gc gl gr s) (x : Removal) :
    (Edit.remove x).Done shared (Good gc gl gr) (view vc vl vr) countersOf s
      (((caches ct lt rt).remove x).act s) := by
  cases x with
  | credentials d => exact remove_credentials_done hc h d
  | deviceGroup d =>
    refine deviceColumn.done d none (.linkRemoved .deviceGroup d.text)
      ((lt _ _).remove d) rfl rfl fun _ t hok => ?_
    obtain ⟨_, _, hok', hgood, hplaced⟩ := (hl _ _).remove h.deviceGroups d
    cases hok'.symm.trans hok
    exact ⟨{ h with deviceGroups := hgood }, hplaced⟩
  | profileGroup p =>
    refine profileColumn.done p none (.linkRemoved .profileGroup p.text)
      ((lt _ _).remove p) rfl rfl fun _ t hok => ?_
    obtain ⟨_, _, hok', hgood, hplaced⟩ := (hl _ _).remove h.profileGroups p
    cases hok'.symm.trans hok
    exact ⟨{ h with profileGroups := hgood }, hplaced⟩
  | groupOrg g =>
    refine orgColumn.done g none (.linkRemoved .groupOrg g.text)
      ((lt _ _).remove g) rfl rfl fun _ t hok => ?_
    obtain ⟨_, _, hok', hgood, hplaced⟩ := (hl _ _).remove h.groupOrgs g
    cases hok'.symm.trans hok
    exact ⟨{ h with groupOrgs := hgood }, hplaced⟩
  | role k =>
    refine roleColumn.done k none (.roleRemoved k) (rt.remove k) rfl rfl fun _ t hok => ?_
    obtain ⟨_, _, hok', hgood, hplaced⟩ := hr.remove h.roles k
    cases hok'.symm.trans hok
    exact ⟨{ h with roles := hgood }, hplaced⟩

theorem entries_counts (h : Good gc gl gr s) (r : Relation) :
    Counts ((caches ct lt rt).statisticsOf s r).entries
      fun q => if q.relation = r then view vc vl vr s q else none := by
  cases r with
  | credential =>
    exact (credentialColumn : Column vc vl vr shared _ _ _).counts (hc.size h.credentials)
  | deviceGroup =>
    exact (deviceColumn : Column vc vl vr shared _ _ _).counts ((hl _ _).size h.deviceGroups)
  | profileGroup =>
    exact (profileColumn : Column vc vl vr shared _ _ _).counts ((hl _ _).size h.profileGroups)
  | groupOrg => exact (orgColumn : Column vc vl vr shared _ _ _).counts ((hl _ _).size h.groupOrgs)
  | role => exact (roleColumn : Column vc vl vr shared _ _ _).counts (hr.size h.roles)

/-- Caches over lawful tables are regular. -/
theorem regular : (caches ct lt rt).Regular (Good gc gl gr) shared where
  lookup_value h q := by
    rw [facts_eq hc hl hr h]
    exact (lookup_act hc hl hr h q).1
  lookup_good h q := by
    rw [(lookup_act hc hl hr h q).2]
    exact h.counted _ q
  lookup_facts {s} h q := by
    rw [(lookup_act hc hl hr h q).2, facts_eq hc hl hr (h.counted _ q), view_counted,
      facts_eq hc hl hr h]
  lookup_counters h q r := by
    rw [(lookup_act hc hl hr h q).2, counters_eq, counters_eq, countersOf_counted,
      facts_eq hc hl hr h]
  edit {s} h e := by
    have hdone : e.Done shared (Good gc gl gr) (view vc vl vr) countersOf s
        (((caches ct lt rt).edit e).act s) := by
      cases e with
      | save f => exact save_done hc hl hr h f
      | remove x => exact remove_done hc hl hr h x
    rcases hdone with ⟨hvalue, hgood, heffect, hcounters⟩ | hfail
    · refine .inl ⟨hvalue, hgood, ?_, ?_⟩
      · rw [facts_eq hc hl hr h, facts_eq hc hl hr hgood]
        exact heffect
      · rw [counters_eq, counters_eq, hcounters]
    · exact .inr hfail
  memberships h m := by
    rw [facts_eq hc hl hr h]
    exact memberships_act hr h m
  entries h r := by
    rw [facts_eq hc hl hr h]
    exact entries_counts hc hl hr h r

end Edits

/-! ## Edits that cannot fail -/

/-- In a good state no removal fails. -/
theorem remove_value (hc : ct.Lawful gc vc shared)
    (hl : ∀ c p, (lt c p).Lawful (gl c p) (vl c p) shared) (hr : rt.Lawful gr vr shared)
    (h : Good gc gl gr s) (x : Removal) : (((caches ct lt rt).remove x).act s).value = .ok () := by
  cases x with
  | credentials d =>
    obtain ⟨n, t, hok, _⟩ := hc.remove h.credentials d
    exact Counted.change_value ⟨n, t, hok⟩
  | deviceGroup d =>
    obtain ⟨b, t, hok, _⟩ := (hl _ _).remove h.deviceGroups d
    exact Counted.change_value ⟨b, t, hok⟩
  | profileGroup p =>
    obtain ⟨b, t, hok, _⟩ := (hl _ _).remove h.profileGroups p
    exact Counted.change_value ⟨b, t, hok⟩
  | groupOrg g =>
    obtain ⟨b, t, hok, _⟩ := (hl _ _).remove h.groupOrgs g
    exact Counted.change_value ⟨b, t, hok⟩
  | role k =>
    obtain ⟨b, t, hok, _⟩ := hr.remove h.roles k
    exact Counted.change_value ⟨b, t, hok⟩

theorem total (hc : ct.Lawful gc vc shared)
    (hl : ∀ c p, (lt c p).Lawful (gl c p) (vl c p) shared) (hr : rt.Lawful gr vr shared)
    (hct : ∀ {t}, gc t → ∀ k d, ∃ t', ct.save k d t = .ok t')
    (hlt : ∀ {c p t}, gl c p t → ∀ k v, ∃ t', (lt c p).save k v t = .ok t')
    (hrt : ∀ {t}, gr t → ∀ k v, ∃ t', rt.save k v t = .ok t') :
    (caches ct lt rt).Total (Good gc gl gr) := by
  intro s h e
  cases e with
  | remove x => exact remove_value hc hl hr h x
  | save f =>
    cases f with
    | credential k d => exact Counted.save_value (ct.save k d) (hct h.credentials k d)
    | deviceGroup d g => exact Counted.save_value ((lt _ _).save d g) (hlt h.deviceGroups d g)
    | profileGroup p g => exact Counted.save_value ((lt _ _).save p g) (hlt h.profileGroups p g)
    | groupOrg g o => exact Counted.save_value ((lt _ _).save g o) (hlt h.groupOrgs g o)
    | role k r => exact Counted.save_value (rt.save k r) (hrt h.roles k r)

end AccessCache.Tables
