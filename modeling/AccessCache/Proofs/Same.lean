import AccessCache.Hierarchy
import AccessCache.Proofs.Change
import AccessCache.Proofs.Resolver

/-!
# Acts that show the same

Two acts show the same when from related states they come to the same value, write the same
journal and lead to related states again. Walks, changes and seedings do nothing but call caches
and the authority, so where the calls show the same, they do too (`Resolver.Same.resolve`,
`Caches.Same.applyAll`).
-/

namespace AccessCache

variable {σ τ σ' τ' α β ε : Type}

/-! ## Acts -/

/-- From states that `R` relates the same value, the same journal, and states that `R` relates. -/
def Act.Same (R : σ → τ → Prop) (x : Act σ α) (y : Act τ α) : Prop :=
  ∀ s t, R s t → (x s).value = (y t).value ∧ (x s).journal = (y t).journal ∧
    R (x s).state (y t).state

/-- Steps that may fail, and then fail alike. -/
def Same (R : σ → τ → Prop) (x : ExceptT ε (Act σ) α) (y : ExceptT ε (Act τ) α) : Prop :=
  Act.Same R x.run y.run

variable {R : σ → τ → Prop}

namespace Act.Same

theorem pure (a : α) : Act.Same R (Pure.pure a) (Pure.pure a) := fun _ _ h => ⟨rfl, rfl, h⟩

theorem report (e : Entry) : Act.Same R (report e) (report e) := fun _ _ h => ⟨rfl, rfl, h⟩

/-- An act beside itself, on equal states. -/
theorem rfl_eq (x : Act σ α) : Act.Same Eq x x := by
  rintro s _ rfl
  exact ⟨rfl, rfl, rfl⟩

theorem bind {x : Act σ α} {y : Act τ α} {f : α → Act σ β} {g : α → Act τ β}
    (h : Act.Same R x y) (hfg : ∀ a, Act.Same R (f a) (g a)) :
    Act.Same R (x >>= f) (y >>= g) := by
  intro s t hst
  obtain ⟨hvalue, hjournal, hR⟩ := h s t hst
  obtain ⟨hvalue', hjournal', hR'⟩ := hfg (x s).value _ _ hR
  rw [bind_apply, bind_apply, ← hvalue]
  refine ⟨hvalue', ?_, hR'⟩
  rw [hjournal, hjournal']

theorem map {x : Act σ α} {y : Act τ α} (f : α → β) (h : Act.Same R x y) :
    Act.Same R (f <$> x) (f <$> y) := by
  rw [map_eq_pure_bind, map_eq_pure_bind]
  exact h.bind fun a => .pure (f a)

theorem on {S : σ' → τ' → Prop} {p : Part σ σ'} {q : Part τ τ'} {x : Act σ' α} {y : Act τ' α}
    (h : Act.Same S x y) (hget : ∀ s t, R s t → S (p.get s) (q.get t))
    (hset : ∀ s t u v, R s t → S u v → R (p.set u s) (q.set v t)) :
    Act.Same R (x.on p) (y.on q) := by
  intro s t hst
  obtain ⟨hvalue, hjournal, hS⟩ := h _ _ (hget s t hst)
  exact ⟨hvalue, hjournal, hset _ _ _ _ hst hS⟩

end Act.Same

/-! ## Steps that may fail -/

namespace Same

theorem pure (a : α) : Same R (Pure.pure a : ExceptT ε (Act σ) α) (Pure.pure a) :=
  Act.Same.pure _

theorem throw (e : ε) :
    Same R (throw e : ExceptT ε (Act σ) α) (throw e : ExceptT ε (Act τ) α) :=
  Act.Same.pure _

theorem bind {x : ExceptT ε (Act σ) α} {y : ExceptT ε (Act τ) α}
    {f : α → ExceptT ε (Act σ) β} {g : α → ExceptT ε (Act τ) β}
    (h : Same R x y) (hfg : ∀ a, Same R (f a) (g a)) : Same R (x >>= f) (y >>= g) := by
  show Act.Same R (x.run >>= ExceptT.bindCont f) (y.run >>= ExceptT.bindCont g)
  refine Act.Same.bind h fun r => ?_
  cases r with
  | ok a => exact hfg a
  | error e => exact .pure _

theorem map {x : ExceptT ε (Act σ) α} {y : ExceptT ε (Act τ) α} (f : α → β) (h : Same R x y) :
    Same R (f <$> x) (f <$> y) := by
  rw [map_eq_pure_bind, map_eq_pure_bind]
  exact h.bind fun a => .pure (f a)

theorem lift_bind {x : Act σ α} {y : Act τ α} {f : α → ExceptT ε (Act σ) β}
    {g : α → ExceptT ε (Act τ) β} (h : Act.Same R x y) (hfg : ∀ a, Same R (f a) (g a)) :
    Same R (liftM x >>= f) (liftM y >>= g) := by
  refine bind ?_ hfg
  exact Act.Same.map Except.ok h

theorem report {x : ExceptT ε (Act σ) α} {y : ExceptT ε (Act τ) α} (e : Entry)
    (h : Same R x y) :
    Same R ((liftM (Act.report e : Act σ Unit) : ExceptT ε (Act σ) Unit) >>= fun _ => x)
      ((liftM (Act.report e : Act τ Unit) : ExceptT ε (Act τ) Unit) >>= fun _ => y) :=
  lift_bind (.report e) fun _ => h

theorem ite {p : Prop} [Decidable p] {x x' : ExceptT ε (Act σ) α} {y y' : ExceptT ε (Act τ) α}
    (h : Same R x y) (h' : Same R x' y') :
    Same R (if p then x else x') (if p then y else y') := by
  split
  · exact h
  · exact h'

end Same

/-! ## Keys -/

def Query.keys : Query → List CredentialKey
  | .credential k => [k]
  | _ => []

/-- The keys that an edit saves. -/
def Edit.keys : Edit → List CredentialKey
  | .save f => f.query.keys
  | .remove _ => []

/-- The keys that a change saves. -/
def Change.keys (c : Change) : List CredentialKey := c.direct.flatMap Edit.keys

/-! ## Caches -/

/-- Caches whose calls show the same, those that save a key provided that it is known. -/
structure Caches.Same (R : σ → τ → Prop) (known : CredentialKey → Prop) (c : Caches σ)
    (c' : Caches τ) : Prop where
  edit : ∀ e : Edit, (∀ k ∈ e.keys, known k) → Act.Same R (c.edit e).act (c'.edit e).act
  lookup : ∀ q, Act.Same R (c.lookup q).act (c'.lookup q).act
  memberships : ∀ m, Act.Same R (c.roles.membershipsOf m).act (c'.roles.membershipsOf m).act
  statistics : ∀ s t, R s t → c.statistics s = c'.statistics t

namespace Caches.Same

variable {known : CredentialKey → Prop} {c : Caches σ} {c' : Caches τ}
  (h : Caches.Same R known c c') (tour : Tour)

include h

theorem removeRoles (ks : List RoleKey) :
    AccessCache.Same R ((⟨c, tour⟩ : Invalidator σ).removeRoles ks)
      ((⟨c', tour⟩ : Invalidator τ).removeRoles ks) := by
  induction ks with
  | nil => exact .pure ()
  | cons k ks ih => exact .bind (h.edit (.remove (.role k)) nofun) fun _ => ih

theorem calls {x : Change} (hx : ∀ k ∈ x.keys, known k) :
    AccessCache.Same R ((⟨c, tour⟩ : Invalidator σ).calls x)
      ((⟨c', tour⟩ : Invalidator τ).calls x) := by
  have hedit : ∀ e ∈ x.direct, AccessCache.Same R (c.edit e).run (c'.edit e).run := fun e he =>
    h.edit e fun k hk => hx k (List.mem_flatMap.mpr ⟨e, he, hk⟩)
  cases x with
  | deviceConnected k d g =>
    exact .bind (hedit (.save (.credential k d)) (by simp [Change.direct]))
      fun _ => hedit (.save (.deviceGroup d g)) (by simp [Change.direct])
  | keyRotated d k =>
    exact .bind (hedit (.remove (.credentials d)) (by simp [Change.direct]))
      fun _ => hedit (.save (.credential k d)) (by simp [Change.direct])
  | deviceRemoved d =>
    exact .bind (hedit (.remove (.credentials d)) (by simp [Change.direct]))
      fun _ => hedit (.remove (.deviceGroup d)) (by simp [Change.direct])
  | groupRemoved g ms =>
    exact .bind (hedit (.remove (.groupOrg g)) (by simp [Change.direct]))
      fun _ => h.removeRoles tour _
  | memberRemoved m => exact .bind (h.memberships m) fun gs => h.removeRoles tour _
  | _ => exact hedit _ List.mem_cons_self

theorem apply {x : Change} (hx : ∀ k ∈ x.keys, known k) :
    AccessCache.Same R ((⟨c, tour⟩ : Invalidator σ).apply x)
      ((⟨c', tour⟩ : Invalidator τ).apply x) :=
  .report _ (h.calls tour hx)

theorem applyAll {xs : List Change} (hxs : ∀ x ∈ xs, ∀ k ∈ x.keys, known k) :
    AccessCache.Same R ((⟨c, tour⟩ : Invalidator σ).applyAll xs)
      ((⟨c', tour⟩ : Invalidator τ).applyAll xs) := by
  induction xs generalizing tour with
  | nil => exact .pure ()
  | cons x xs ih =>
    obtain ⟨hx, hxs⟩ := List.forall_mem_cons.mp hxs
    exact .bind (h.apply tour hx) fun _ => ih (tour.after 1) hxs

omit tour in
theorem seed {x : Hierarchy} (hx : known x.key) :
    AccessCache.Same R (x.seed c) (x.seed c') := by
  have hkey : ∀ k ∈ (Edit.save (.credential x.key x.device)).keys, known k :=
    List.forall_mem_singleton.mpr hx
  refine .bind (h.edit (.save (.credential x.key x.device)) hkey) fun _ => ?_
  refine .bind (h.edit (.save (.deviceGroup x.device x.group)) nofun) fun _ => ?_
  refine .bind (h.edit (.save (.profileGroup x.profile x.group)) nofun) fun _ => ?_
  refine .bind (h.edit (.save (.groupOrg x.group x.org)) nofun) fun _ => ?_
  exact h.edit (.save (.role ⟨x.group, x.member⟩ x.role)) nofun

end Caches.Same

/-! ## Tables -/

namespace Counted

/-- Related tables under the same counters. -/
def Beside (S : σ → τ → Prop) (s : Counted σ) (t : Counted τ) : Prop :=
  S s.table t.table ∧ s.counters = t.counters

variable {S : σ → τ → Prop} (r : Relation)

theorem lookup_same (key : String) (entry : Bool → Entry) {find : σ → Except StoreError (Option α)}
    {find' : τ → Except StoreError (Option α)} (h : ∀ s t, S s t → find s = find' t) :
    Act.Same (Beside S) (lookup r key entry find).act (lookup r key entry find').act := by
  rintro ⟨s, n⟩ ⟨t, _⟩ ⟨hS, rfl⟩
  have hfind : find s = find' t := h s t hS
  simp only [lookup, Call.now, Act.bind_apply, Act.observe]
  rw [hfind]
  rcases find' t with e | (_ | a)
  · exact ⟨rfl, rfl, hS, rfl⟩
  · exact ⟨rfl, rfl, hS, rfl⟩
  · exact ⟨rfl, rfl, hS, rfl⟩

theorem change_same (entry : α → Entry) {f : σ → Except StoreError (α × σ)}
    {g : τ → Except StoreError (α × τ)}
    (h : ∀ s t, S s t → Matches (fun x y => x.1 = y.1 ∧ S x.2 y.2) (f s) (g t)) :
    Act.Same (Beside S) (change r entry f).act (change r entry g).act := by
  rintro ⟨s, n⟩ ⟨t, _⟩ ⟨hS, rfl⟩
  have hfg := h s t hS
  simp only [change, Call.now, Act.bind_apply, Act.observe]
  revert hfg
  generalize f s = x
  generalize g t = y
  rintro (@⟨⟨a, s'⟩, ⟨_, t'⟩, rfl, hS'⟩ | e)
  · exact ⟨rfl, rfl, hS', rfl⟩
  · exact ⟨rfl, rfl, hS, rfl⟩

end Counted

/-- Tables whose operations come to the same from states that `S` relates, saves of known keys
included. -/
structure CredentialTable.Same (S : σ → τ → Prop) (known : CredentialKey → Prop)
    (t : CredentialTable σ) (t' : CredentialTable τ) : Prop where
  save : ∀ {s u k}, S s u → known k → ∀ d, Matches S (t.save k d s) (t'.save k d u)
  find : ∀ {s u}, S s u → ∀ k, t.find k s = t'.find k u
  remove : ∀ {s u}, S s u → ∀ d,
    Matches (fun x y => x.1 = y.1 ∧ S x.2 y.2) (t.remove d s) (t'.remove d u)
  size : ∀ {s u}, S s u → t.size s = t'.size u

namespace Tables

variable {C C' T : Type} {L : Noun → Noun → Type} {S : C → C' → Prop}

/-- Related tables of credentials beside equal tables of everything else. -/
structure Beside (S : C → C' → Prop) (s : Tables C L T) (t : Tables C' L T) : Prop where
  credentials : s.credentials.Beside S t.credentials
  deviceGroups : s.deviceGroups = t.deviceGroups
  profileGroups : s.profileGroups = t.profileGroups
  groupOrgs : s.groupOrgs = t.groupOrgs
  roles : s.roles = t.roles

theorem credential_same {x : Act (Counted C) α} {y : Act (Counted C') α}
    (h : Act.Same (Counted.Beside S) x y) :
    Act.Same (Beside S : Tables C L T → _ → _) (x.on credentialPart) (y.on credentialPart) :=
  h.on (fun _ _ h => h.credentials) fun _ _ _ _ h h' => { h with credentials := h' }

theorem device_same (x : Act (Counted (L .device .group)) α) :
    Act.Same (Beside S : Tables C L T → _ → _) (x.on devicePart) (x.on devicePart) :=
  (Act.Same.rfl_eq x).on (fun _ _ h => h.deviceGroups) fun _ _ _ _ h h' =>
    { h with deviceGroups := h' }

theorem profile_same (x : Act (Counted (L .profile .group)) α) :
    Act.Same (Beside S : Tables C L T → _ → _) (x.on profilePart) (x.on profilePart) :=
  (Act.Same.rfl_eq x).on (fun _ _ h => h.profileGroups) fun _ _ _ _ h h' =>
    { h with profileGroups := h' }

theorem org_same (x : Act (Counted (L .group .org)) α) :
    Act.Same (Beside S : Tables C L T → _ → _) (x.on orgPart) (x.on orgPart) :=
  (Act.Same.rfl_eq x).on (fun _ _ h => h.groupOrgs) fun _ _ _ _ h h' => { h with groupOrgs := h' }

theorem role_same (x : Act (Counted T) α) :
    Act.Same (Beside S : Tables C L T → _ → _) (x.on rolePart) (x.on rolePart) :=
  (Act.Same.rfl_eq x).on (fun _ _ h => h.roles) fun _ _ _ _ h h' => { h with roles := h' }

/-- Caches over tables of credentials that come to the same do too. -/
theorem caches_same {known : CredentialKey → Prop} {ct : CredentialTable C}
    {ct' : CredentialTable C'} (h : ct.Same S known ct')
    (lt : (c p : Noun) → LinkTable (L c p) c p) (rt : RoleTable T) :
    Caches.Same (Beside S) known (caches ct lt rt) (caches ct' lt rt) where
  edit e he := by
    cases e with
    | save f =>
      cases f with
      | credential k d =>
        refine credential_same (Counted.change_same .credential _ fun s t hS => ?_)
        have hsave := h.save hS (he k List.mem_cons_self) d
        revert hsave
        generalize ct.save k d s = x
        generalize ct'.save k d t = y
        rintro (hS' | e)
        · exact .ok ⟨rfl, hS'⟩
        · exact .error e
      | deviceGroup d g => exact device_same _
      | profileGroup p g => exact profile_same _
      | groupOrg g o => exact org_same _
      | role k r => exact role_same _
    | remove x =>
      cases x with
      | credentials d =>
        exact credential_same (Counted.change_same .credential _ fun s t hS => h.remove hS d)
      | deviceGroup d => exact device_same _
      | profileGroup p => exact profile_same _
      | groupOrg g => exact org_same _
      | role k => exact role_same _
  lookup q := by
    cases q with
    | credential k =>
      exact credential_same (Counted.lookup_same .credential _ _ fun s t hS => h.find hS k)
    | deviceGroup d => exact device_same _
    | profileGroup p => exact profile_same _
    | groupOrg g => exact org_same _
    | role k => exact role_same _
  memberships m := role_same _
  statistics s t hst := by
    obtain ⟨⟨hS, hcounters⟩, hdevices, hprofiles, horgs, hroles⟩ := hst
    have hcredentials : ct.cache.statistics s.credentials = ct'.cache.statistics t.credentials := by
      show s.credentials.counters.statistics (ct.size s.credentials.table) =
        t.credentials.counters.statistics (ct'.size t.credentials.table)
      rw [hcounters, h.size hS]
    simp only [Caches.statistics, caches, CredentialCache.through, LinkCache.through,
      RoleCache.through, Layer.ofPart, credentialPart, devicePart, profilePart, orgPart, rolePart]
    rw [hcredentials, hdevices, hprofiles, horgs, hroles]

end Tables

/-! ## Resolvers -/

/-- Resolvers whose caches show the same and whose authorities give the same answers. -/
structure Resolver.Same (R : σ → τ → Prop) (known : CredentialKey → Prop) (r : Resolver σ)
    (r' : Resolver τ) : Prop where
  caches : Caches.Same R known r.caches r'.caches
  question : ∀ q, Act.Same R (r.authority.question q) (r'.authority.question q)

namespace Resolver.Same

variable {known : CredentialKey → Prop} {r : Resolver σ} {r' : Resolver τ}
  (h : Resolver.Same R known r r')

include h

theorem stageOf {q : Query} (hq : ∀ k ∈ q.keys, known k) :
    AccessCache.Same R (r.stageOf q) (r'.stageOf q) := by
  have hask : AccessCache.Same R (ask (r.authority.question q) q.absent)
      (ask (r'.authority.question q) q.absent) := by
    refine .lift_bind (h.question q) fun answer => ?_
    rcases answer with e | (_ | v)
    · exact .throw _
    · exact .throw _
    · exact .pure v
  refine .lift_bind (h.caches.lookup q) fun found => ?_
  rcases found with (⟨r, k⟩ | ⟨r, o⟩) | v
  · refine hask.bind fun v => ?_
    have hsave := h.caches.edit (.save (q.fact v)) (by rwa [Edit.keys, Fact.query_fact])
    refine .bind (.lift_bind hsave fun written => ?_) fun _ => .pure (v, false)
    cases written with
    | ok _ => exact .pure ()
    | error e => exact .lift_bind (.report _) fun _ => .pure ()
  · exact .report _ (hask.bind fun v => .pure (v, false))
  · exact .pure (v, true)

theorem checkProfile (g : GroupId) (p : Option ProfileId) :
    AccessCache.Same R (r.checkProfile g p) (r'.checkProfile g p) := by
  cases p with
  | none => exact .pure true
  | some p =>
    refine (h.stageOf (q := .profileGroup p) nofun).bind fun (v : GroupId × Bool) => ?_
    exact .ite (.pure v.2) (.throw _)

theorem memberRole (g : GroupId) (m : Option MemberId) :
    AccessCache.Same R (r.memberRole g m) (r'.memberRole g m) := by
  cases m with
  | none => exact .pure (none, true)
  | some m => exact (h.stageOf (q := .role ⟨g, m⟩) nofun).bind fun v => .pure (some v.1, v.2)

theorem resolve {q : AccessRequest} (hq : known q.key) :
    AccessCache.Same R (r.resolve q) (r'.resolve q) := by
  have hkey : ∀ k ∈ (Query.credential q.key).keys, known k := List.forall_mem_singleton.mpr hq
  refine (h.stageOf hkey).bind fun device => ?_
  refine (h.stageOf (q := .deviceGroup device.1) nofun).bind fun group => ?_
  refine (h.checkProfile group.1 q.profile).bind fun hit => ?_
  refine (h.stageOf (q := .groupOrg group.1) nofun).bind fun org => ?_
  refine (h.memberRole group.1 q.member).bind fun role => ?_
  exact .report _ (.pure _)

end Resolver.Same

end AccessCache
