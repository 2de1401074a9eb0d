import AccessCache.Proofs.Attempt
import AccessCache.Proofs.Retentive
import AccessCache.Proofs.Session.View

/-!
# Backends

The caches that a set-up opens are those in memory or those on disk, with a size of their own
(`Setup.backend_cases`): a deadline around calls that do not wait makes no difference. In a world
their calls may fail, but without effect (`Caches.over_inWorld`). Lookups change nothing that a
backend holds, in any state (`Backend.looked_contents`).
-/

namespace AccessCache

theorem Setup.openDisk_cases {s : Setup} {b : Backend} {opening : List Entry}
    {wrap : Caches Disk.State → Caches Disk.State}
    (hwrap : ∀ n, wrap (Disk.caches n) = Disk.caches n)
    (h : (s.openDisk opening wrap).1 = .ok b) :
    ∃ capacity, b = .disk (Disk.caches capacity) opening := by
  unfold openDisk at h
  cases hopen : Disk.openStores s.maxSizeMb s.rootIsFile with
  | error e =>
    rw [hopen] at h
    cases h
  | ok caches =>
    rw [hopen, Disk.eq_caches_of_openStores hopen] at h
    obtain rfl := Except.ok.inj h
    exact ⟨_, congrArg (Backend.disk · opening) (hwrap _)⟩

theorem Setup.backend_cases {s : Setup} {b : Backend} (h : s.backend.1 = .ok b) :
    (∃ opening atHand, b = .memory opening atHand) ∨
      ∃ capacity opening, b = .disk (Disk.caches capacity) opening := by
  unfold backend at h
  cases hw : s.wiring with
  | diskByConfig =>
    rw [hw] at h
    obtain ⟨capacity, hb⟩ := openDisk_cases (fun n => Disk.caches_within n (some s.timeout)) h
    exact .inr ⟨capacity, _, hb⟩
  | diskByHand =>
    rw [hw] at h
    obtain ⟨capacity, hb⟩ := openDisk_cases (fun _ => rfl) h
    exact .inr ⟨capacity, _, hb⟩
  | _ =>
    rw [hw] at h
    exact .inl ⟨_, _, (Except.ok.inj h).symm⟩

/-- The caches of every backend are steady. -/
theorem Backend.steady {s : Setup} {b : Backend} (h : s.backend.1 = .ok b) : b.caches.Steady := by
  rcases Setup.backend_cases h with ⟨_, _, rfl⟩ | ⟨capacity, _, rfl⟩
  · exact Memory.steady
  · exact Disk.steady capacity

/-- The caches of every backend are retentive. -/
theorem Backend.retentive {s : Setup} {b : Backend} (h : s.backend.1 = .ok b) :
    b.caches.Retentive := by
  rcases Setup.backend_cases h with ⟨_, _, rfl⟩ | ⟨capacity, _, rfl⟩
  · exact Memory.retentive
  · exact Disk.retentive capacity

theorem Backend.prompt {s : Setup} {b : Backend} (h : s.backend.1 = .ok b) : b.caches.Prompt := by
  rcases Setup.backend_cases h with ⟨_, _, rfl⟩ | ⟨capacity, _, rfl⟩
  · exact Tables.prompt _ _ _
  · exact Tables.prompt _ _ _

/-- Nothing that the caches answer or hold differs, down to the bytes of their databases. -/
structure Backend.SameContents (b : Backend) (s t : b.State) : Prop
    extends b.caches.SameEntries s t where
  databases : ∀ r, ∀ e ∈ b.databases r, e.2.get t = e.2.get s

/-- A lookup writes to no database. -/
theorem Disk.get_lookup (capacity : Option Nat) (s : Disk.State) (q : Query) {r : Relation}
    {e : String × Part Disk.State Disk.Database} (he : e ∈ Disk.databases r) :
    e.2.get (((Disk.caches capacity).lookup q).act s).state = e.2.get s := by
  have hcounted : ∀ found, e.2.get (s.counted found q) = e.2.get s := by
    intro found
    cases r with
    | credential =>
      rcases List.mem_cons.mp he with rfl | he
      · cases q <;> rfl
      · obtain rfl := List.mem_singleton.mp he
        cases q <;> rfl
    | role =>
      rcases List.mem_cons.mp he with rfl | he
      · cases q <;> rfl
      · obtain rfl := List.mem_singleton.mp he
        cases q <;> rfl
    | _ =>
      obtain rfl := List.mem_singleton.mp he
      cases q <;> rfl
  rw [(lookup_eq_found capacity s q).2]
  cases Tables.find (credentialTable capacity) (linkTable capacity) (roleTable capacity) s q with
  | ok found => exact hcounted _
  | error err => rfl

theorem Backend.looked_contents {setup : Setup} {b : Backend} (h : setup.backend.1 = .ok b)
    (qs : List Query) (s : b.State) : b.SameContents s (b.caches.looked qs s) where
  toSameEntries := (Backend.retentive h).looked_same qs s
  databases r e he := by
    induction qs generalizing s with
    | nil => rfl
    | cons q qs ih =>
      rw [Caches.looked_cons, ih]
      rcases Setup.backend_cases h with ⟨_, _, rfl⟩ | ⟨capacity, _, rfl⟩
      · cases he
      · exact Disk.get_lookup capacity s q he

/-- Plan and deadline may make calls fail, but without effect on the tables. -/
theorem Caches.over_inWorld {β : Type} (base : Caches β) (deadline : Option Duration) :
    (base.inWorld deadline).Over base World.tables := by
  have hcall : ∀ {α : Type} (r : Relation) (m : Method) (call : Call β α),
      (call.inWorld deadline r m).Over World.tables call := by
    intro α r m call w
    rcases Call.act_inWorld deadline r m call w with
      ⟨err, p, hvalue, hstate⟩ | ⟨p, hvalue, hstate⟩
    · exact .inl ⟨err, hvalue, by rw [hstate]⟩
    · exact .inr ⟨hvalue, by rw [hstate]⟩
  refine ⟨fun e => ?_, fun m => ?_⟩
  · rw [edit_inWorld]
    exact hcall _ _ _
  · rw [membershipsOf_inWorld]
    exact hcall _ _ _

/-! ## Calls that may fail -/

section Over

variable {σ β α ρ : Type} {tables : σ → β} {s : σ}

/-- A view of tables, seen from a state around them. -/
def View.around (v : View β ρ) (tables : σ → β) : View σ ρ where
  facts s := v.facts (tables s)
  rest s := v.rest (tables s)
  good s := v.good (tables s)
  calm _ := False
  allowed := v.allowed
  lossy := v.lossy

/-- A call that may fail does no more than the call by itself. -/
theorem Call.Over.traced {v : View β ρ} {es : Query → List Edit} {x : Call σ α} {y : Call β α}
    (h : x.Over tables y) (hgood : v.good (tables s))
    (hy : v.Traced (tables s) es (y.act (tables s))) :
    (v.around tables).Traced s es (x.act s) := by
  rcases h s with ⟨err, hvalue, hsame⟩ | ⟨hvalue, hstate⟩
  · refine ⟨(congrArg v.good hsame).mpr hgood, congrArg v.rest hsame, False.elim, fun q => ?_⟩
    refine ⟨[], List.nil_subset _, fun a ha => ?_, .inl (congrArg (v.facts · q) hsame)⟩
    cases hvalue.symm.trans ha
  · refine ⟨(congrArg v.good hstate).mpr hy.good, (congrArg v.rest hstate).trans hy.rest,
      False.elim, fun q => ?_⟩
    obtain ⟨ys, hys, hall, hkept⟩ := hy.facts q
    refine ⟨ys, hys, fun a ha => hall a (hvalue.symm.trans ha), ?_⟩
    exact (congrArg (v.facts · q) hstate).symm ▸ hkept

/-- Calls that may fail do what the view of the tables says. -/
theorem Caches.Over.serves {c : Caches σ} {base : Caches β} {good : β → Prop}
    {shared : String → String → Prop} {known : String → Prop} (hc : c.Over base tables)
    (hbase : base.Regular good shared) :
    ((base.view good shared known).around tables).Serves c where
  edit {s e} h he := (hc.edit e).traced h (hbase.edit_traced h he)
  memberships h m := (hc.memberships m).traced h (hbase.memberships_traced h m)
  mem_memberships {s m gs} h hgs g := by
    obtain ⟨gs', hok, hsame, hmem⟩ := hbase.memberships h.1 m
    rcases hc.memberships m s with ⟨err, hvalue, _⟩ | ⟨hvalue, hstate⟩
    · cases hvalue.symm.trans hgs
    · cases (hvalue.trans hok).symm.trans hgs
      rw [hmem]
      show _ ↔ (base.facts (tables _) _).isSome
      rw [hstate, hsame]
  role_allowed {s k} h hk := by
    obtain ⟨r, hr⟩ := Option.isSome_iff_exists.mp hk
    exact (h.2 _ r hr).2

end Over

/-! ## Reachable states -/

/-- The states that calls lead to, edits among known texts, and opening the caches again. -/
inductive Backend.Reached (b : Backend) (known : String → Prop) : b.State → Prop
  | fresh : Reached b known b.fresh
  | lookup {s} (q : Query) : Reached b known s → Reached b known ((b.caches.lookup q).act s).state
  | edit {s} {e : Edit} : (∀ t ∈ e.texts, known t) → Reached b known s →
      Reached b known ((b.caches.edit e).act s).state
  | memberships {s} (m : MemberId) : Reached b known s →
      Reached b known ((b.caches.roles.membershipsOf m).act s).state
  | reopened {s} : Reached b known s → Reached b known (b.reopened s)

theorem Backend.Reached.good {b : Backend} {good : b.State → Prop}
    {shared : String → String → Prop} {known : String → Prop} {s : b.State}
    (hc : b.caches.Regular good shared) (hfresh : good b.fresh)
    (hempty : b.caches.facts b.fresh = fun _ => none)
    (hreopened : ∀ {s}, good s → good (b.reopened s) ∧
      (b.caches.facts (b.reopened s)).Within (b.caches.facts s))
    (h : b.Reached known s) : (b.caches.view good shared known).good s := by
  induction h with
  | fresh => exact ⟨hfresh, hempty.symm ▸ Facts.known_empty known⟩
  | lookup q _ ih => exact ⟨hc.lookup_good ih.1 q, (hc.lookup_facts ih.1 q).symm ▸ ih.2⟩
  | edit he _ ih => exact (hc.edit_traced ih he).good
  | memberships m _ ih => exact (hc.memberships_traced ih m).good
  | reopened _ ih =>
    obtain ⟨hgood, hwithin⟩ := hreopened ih.1
    exact ⟨hgood, fun q v hv => ih.2 q v (hwithin q v hv)⟩

/-- Caches on disk that are opened again hold what they held. -/
theorem Disk.reopened_good (capacity : Option Nat) {s : Disk.State} (h : Good s) :
    Good s.recounted ∧
      ((caches capacity).facts s.recounted).Within ((caches capacity).facts s) := by
  have hgood : Good s.recounted := ⟨h.1, h.2, h.3, h.4, h.5⟩
  have hfacts : ∀ {t : Disk.State}, Good t → (caches capacity).facts t = Tables.view _ _ _ t :=
    Tables.facts_eq (credentialTable_lawful capacity) (linkTable_lawful capacity)
      (roleTable_lawful capacity)
  refine ⟨hgood, fun q v hv => ?_⟩
  rw [hfacts hgood] at hv
  rw [hfacts h]
  cases q <;> exact hv

theorem Memory.reached_good {opening : List Entry} {atHand : Bool} {known : String → Prop}
    {s : Memory.State} (h : (Backend.memory opening atHand).Reached known s) :
    (caches.view Good Eq known).good s := by
  refine h.good regular good_empty facts_empty fun _ => ?_
  exact ⟨good_empty, fun q v hv => by cases (congrFun facts_empty q).symm.trans hv⟩

theorem Disk.reached_good {capacity : Option Nat} {opening : List Entry} {known : String → Prop}
    {s : Disk.State} (h : (Backend.disk (caches capacity) opening).Reached known s) :
    ((caches capacity).view Good Shared known).good s :=
  h.good (regular capacity) good_empty (facts_empty capacity) fun hs => reopened_good capacity hs

/-- What the theory needs of a backend whose entries stand in places of their own. -/
theorem Backend.exists_regular {setup : Setup} {b : Backend} (hb : setup.backend.1 = .ok b)
    {known : String → Prop}
    (hapart : ∀ r, b.hasDatabases r → ∀ s t, known s → known t → Key.part s = Key.part t → s = t) :
    ∃ good shared, b.caches.Regular good shared ∧ ¬ Lossy shared known ∧
      ∀ s, b.Reached known s → (b.caches.view good shared known).good s := by
  rcases Setup.backend_cases hb with ⟨_, _, rfl⟩ | ⟨capacity, _, rfl⟩
  · exact ⟨_, _, Memory.regular, not_lossy_eq known, fun _ => Memory.reached_good⟩
  · have hkeeps : ¬ Lossy Disk.Shared known := by
      rintro ⟨s, t, hs, ht, hne, hshared⟩
      exact hne (hapart .credential rfl s t hs ht hshared)
    exact ⟨_, _, Disk.regular capacity, hkeeps, fun _ => Disk.reached_good⟩

end AccessCache
