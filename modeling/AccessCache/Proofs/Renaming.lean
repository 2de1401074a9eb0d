import AccessCache.Proofs.Same
import AccessCache.Session.World
import Mathlib.Logic.Function.Basic

/-!
# Renamed keys

Using caches and an authority by renamed keys is using caches and an authority that rename the keys
they are given (`Resolver.resolve_rename`, `Caches.apply_rename`). Tables and registries only tell
keys apart, so one that holds its entries under renamed keys shows the same
(`CredentialTable.Lawful.renamed_same`, `Registry.question_same`).
-/

namespace AccessCache

variable {σ : Type} (f : CredentialKey → CredentialKey)

/-! ## Names -/

def Fact.rename : Fact → Fact
  | .credential k d => .credential (f k) d
  | x => x

def Query.rename : Query → Query
  | .credential k => .credential (f k)
  | q => q

def Edit.rename : Edit → Edit
  | .save x => .save (x.rename f)
  | .remove x => .remove x

def Change.rename : Change → Change
  | .deviceConnected k d g => .deviceConnected (f k) d g
  | .keyRotated d k => .keyRotated d (f k)
  | c => c

def AccessRequest.rename (q : AccessRequest) : AccessRequest := { q with key := f q.key }

def Hierarchy.rename (h : Hierarchy) : Hierarchy := { h with key := f h.key }

/-! ## Renaming on the way in -/

/-- The table that works with the new name of each key that it is given. -/
def CredentialTable.renamed (t : CredentialTable σ) : CredentialTable σ :=
  { t with save := fun k => t.save (f k), find := fun k => t.find (f k) }

def CredentialCache.renamed (c : CredentialCache σ) : CredentialCache σ :=
  { c with save := fun k => c.save (f k), resolve := fun k => c.resolve (f k) }

def Caches.renamed (c : Caches σ) : Caches σ := { c with credentials := c.credentials.renamed f }

def Authority.renamed (a : Authority σ) : Authority σ :=
  { a with deviceOfKey := fun k => a.deviceOfKey (f k) }

def Resolver.renamed (r : Resolver σ) : Resolver σ := ⟨r.caches.renamed f, r.authority.renamed f⟩

theorem Tables.caches_renamed {C R : Type} {L : Noun → Noun → Type} (ct : CredentialTable C)
    (lt : (c p : Noun) → LinkTable (L c p) c p) (rt : RoleTable R) :
    (caches ct lt rt).renamed f = caches (ct.renamed f) lt rt := rfl

namespace Caches

variable (c : Caches σ)

theorem edit_renamed (e : Edit) : (c.renamed f).edit e = c.edit (e.rename f) := by
  rcases e with x | x <;> cases x <;> rfl

theorem lookup_renamed (q : Query) :
    Except.map Id.text <$> ((c.renamed f).lookup q).act =
      Except.map Id.text <$> (c.lookup (q.rename f)).act := by
  cases q <;> rfl

theorem inWorld_renamed (deadline : Option Duration) :
    (c.renamed f).inWorld deadline = (c.inWorld deadline).renamed f := by
  cases deadline <;> rfl

theorem seed_rename (h : Hierarchy) : (h.rename f).seed c = h.seed (c.renamed f) := rfl

variable (tour : Tour)

theorem removeRoles_renamed (ks : List RoleKey) :
    (⟨c.renamed f, tour⟩ : Invalidator σ).removeRoles ks =
      (⟨c, tour⟩ : Invalidator σ).removeRoles ks := by
  induction ks with
  | nil => rfl
  | cons k ks ih =>
    rw [Invalidator.removeRoles, Invalidator.removeRoles, ih]
    rfl

theorem apply_rename (x : Change) :
    (⟨c, tour⟩ : Invalidator σ).apply (x.rename f) =
      (⟨c.renamed f, tour⟩ : Invalidator σ).apply x := by
  cases x with
  | groupRemoved g ms =>
    simp only [Invalidator.apply, Invalidator.calls, removeRoles_renamed, Change.rename]
    rfl
  | memberRemoved m =>
    simp only [Invalidator.apply, Invalidator.calls, removeRoles_renamed, Change.rename]
    rfl
  | _ => rfl

theorem applyAll_rename (xs : List Change) :
    (⟨c, tour⟩ : Invalidator σ).applyAll (xs.map (·.rename f)) =
      (⟨c.renamed f, tour⟩ : Invalidator σ).applyAll xs := by
  induction xs generalizing tour with
  | nil => rfl
  | cons x xs ih =>
    rw [List.map_cons, Invalidator.applyAll, Invalidator.applyAll, apply_rename]
    simp only [Invalidator.after, ih]

end Caches

theorem Resolver.resolve_rename (r : Resolver σ) (q : AccessRequest) :
    r.resolve (q.rename f) = (r.renamed f).resolve q := rfl

/-! ## Entries under renamed keys -/

variable {κ ν : Type} {f}

/-- The new name of a key has what the old one had, and nothing else has anything. -/
structure Renames (g : κ → κ) (F F' : κ → Option ν) : Prop where
  image : ∀ k, F' (g k) = F k
  only : ∀ k', (∀ k, k' ≠ g k) → F' k' = none

namespace Renames

variable {g : κ → κ} {F F' G G' : κ → Option ν}

theorem filter (h : Renames g F F') (p : ν → Bool) :
    Renames g (fun k => (F k).filter p) fun k => (F' k).filter p where
  image k := by rw [h.image]
  only k' hk' := by rw [h.only k' hk']; rfl

theorem counts_eq (h : Renames g F F') (hg : g.Injective) {n n' : Nat} (hn : Counts n F)
    (hn' : Counts n' F') : n = n' := by
  have himage : Counts n F' := hn.image hg (fun k => by rw [h.image]) h.only
  exact himage.unique hn' fun _ => rfl

/-- A write under the old name here and under the new name there, that loses no other entry. -/
theorem placed {clash clash' : κ → κ → Prop} (h : Renames g F F') (hg : g.Injective) {k : κ}
    {v : Option ν} (hG : Placed clash k v F G) (hG' : Placed clash' (g k) v F' G')
    (hkeep : ∀ j, j ≠ k → (F j).isSome → ¬ clash k j ∧ ¬ clash' (g k) (g j)) :
    Renames g G G' where
  image j := by
    by_cases hj : j = k
    · rw [hj, hG.self, hG'.self]
    · have hother := hG.other j hj
      have hother' := hG'.other (g j) fun he => hj (hg he)
      rw [h.image] at hother'
      cases hF : F j with
      | none =>
        -- nothing was there, so nothing can have been lost
        rw [hF] at hother hother'
        rw [hother.elim id And.right, hother'.elim id And.right]
      | some w =>
        obtain ⟨hc, hc'⟩ := hkeep j hj (Option.isSome_of_eq_some hF)
        rw [hother.resolve_right fun h => hc h.1, hother'.resolve_right fun h => hc' h.1]
  only k' hk' := by
    rcases hG'.other k' (hk' k) with heq | ⟨_, hnone⟩
    · rw [heq, h.only k' hk']
    · exact hnone

end Renames

/-! ## Tables -/

namespace CredentialTable

variable {τ : Type} {t : CredentialTable τ} {good : τ → Prop}
  {view : τ → CredentialKey → Option DeviceId} {shared : String → String → Prop}
  {known : CredentialKey → Prop}

/-- Good states with the same entries, all of known keys, in the second under their new names. -/
structure Renamed (good : τ → Prop) (view : τ → CredentialKey → Option DeviceId)
    (f : CredentialKey → CredentialKey) (known : CredentialKey → Prop) (s u : τ) : Prop where
  good : good s ∧ good u
  known : ∀ k, (view s k).isSome → known k
  renames : Renames f (view s) (view u)

theorem renamed_empty {s : τ} (hgood : good s) (hempty : ∀ k, view s k = none) :
    Renamed good view f known s s where
  good := ⟨hgood, hgood⟩
  known k hk := by
    rw [hempty] at hk
    cases hk
  renames := ⟨fun k => by rw [hempty, hempty], fun k' _ => hempty k'⟩

/-- A table under renamed keys shows the same, if its saves succeed and no two of the known keys
stand in the same place, before or after they are renamed. -/
theorem Lawful.renamed_same (h : t.Lawful good view shared) (hf : f.Injective)
    (htotal : ∀ {s}, good s → ∀ k d, ∃ s', t.save k d s = .ok s')
    (hapart : ∀ k j, known k → known j → j ≠ k →
      ¬ shared k.secret j.secret ∧ ¬ shared (f k).secret (f j).secret) :
    t.Same (Renamed good view f known) known (t.renamed f) where
  save {s u k} hsu hk d := by
    obtain ⟨s', hs⟩ := htotal hsu.good.1 k d
    obtain ⟨u', hu⟩ := htotal hsu.good.2 (f k) d
    obtain ⟨hs', hplaced⟩ := h.save hsu.good.1 hs
    obtain ⟨hu', hplaced'⟩ := h.save hsu.good.2 hu
    have hrenames : Renames f (view s') (view u') :=
      hsu.renames.placed hf hplaced hplaced' fun j hj hsome => hapart k j hk (hsu.known j hsome) hj
    show Matches _ (t.save k d s) (t.save (f k) d u)
    rw [hs, hu]
    refine .ok ⟨⟨hs', hu'⟩, fun j hj => ?_, hrenames⟩
    -- a save adds no key but its own, which is known
    by_cases hjk : j = k
    · exact hjk ▸ hk
    · rcases hplaced.other j hjk with heq | ⟨_, hnone⟩
      · exact hsu.known j (heq ▸ hj)
      · rw [hnone] at hj
        cases hj
  find {s u} hsu k := by
    show t.find k s = t.find (f k) u
    rw [h.find hsu.good.1, h.find hsu.good.2, hsu.renames.image]
  remove {s u} hsu d := by
    obtain ⟨n, s', hs, hs', hfilter, hn⟩ := h.remove hsu.good.1 d
    obtain ⟨n', u', hu, hu', hfilter', hn'⟩ := h.remove hsu.good.2 d
    show Matches _ (t.remove d s) (t.remove d u)
    rw [hs, hu]
    refine .ok ⟨(hsu.renames.filter _).counts_eq hf hn hn', ⟨hs', hu'⟩, fun k hk => ?_, ?_⟩
    · rw [hfilter] at hk
      obtain ⟨v, hv⟩ := Option.isSome_iff_exists.mp hk
      exact hsu.known k (Option.isSome_of_eq_some (Option.filter_eq_some_iff.mp hv).1)
    · rw [funext hfilter, funext hfilter']
      exact hsu.renames.filter _
  size {s u} hsu := hsu.renames.counts_eq hf (h.size hsu.good.1) (h.size hsu.good.2)

end CredentialTable

/-! ## Registries -/

namespace Registry

variable {r r' : Registry}

/-- The registry with renamed keys. -/
def rename (f : CredentialKey → CredentialKey) (r : Registry) : Registry :=
  { r with devices := .ofList (r.devices.toList.map fun e => (f e.1, e.2)) }

/-- The second registry is the first with renamed keys. -/
def Renamed (f : CredentialKey → CredentialKey) (r r' : Registry) : Prop :=
  ∃ devices, r' = { r with devices := devices } ∧
    Renames f (fun k => r.devices[k]?) fun k => devices[k]?

theorem renamed_rename (hf : f.Injective) (r : Registry) : Renamed f r (r.rename f) := by
  let renamed : List (CredentialKey × DeviceId) := r.devices.toList.map fun e => (f e.1, e.2)
  have hnone : ∀ k', (∀ k, (r.devices[k]?).isSome → k' ≠ f k) →
      (Std.ExtTreeMap.ofList renamed compare)[k']? = none := by
    intro k' hk'
    refine Std.ExtTreeMap.getElem?_ofList_of_contains_eq_false ?_
    rw [← Bool.not_eq_true, List.contains_iff_mem, List.map_map, List.mem_map]
    rintro ⟨⟨k, d⟩, he, rfl⟩
    have hd : r.devices[k]? = some d := Std.ExtTreeMap.mem_toList_iff_getElem?_eq_some.mp he
    exact hk' k (Option.isSome_of_eq_some hd) rfl
  refine ⟨_, rfl, fun k => ?_, fun k' hk' => hnone k' fun k _ => hk' k⟩
  cases hk : r.devices[k]? with
  | none =>
    refine hnone (f k) fun j hj heq => ?_
    rw [← hf heq, hk] at hj
    cases hj
  | some d =>
    refine Std.ExtTreeMap.getElem?_ofList_of_mem Std.ReflCmp.compare_self ?_ ?_
    · refine List.pairwise_map.mpr (Std.ExtTreeMap.distinct_keys_toList.imp fun hne heq => hne ?_)
      rw [hf (Std.LawfulEqCmp.eq_of_compare heq)]
      exact Std.ReflCmp.compare_self
    · exact List.mem_map.mpr ⟨(k, d), Std.ExtTreeMap.mem_toList_iff_getElem?_eq_some.mpr hk, rfl⟩

theorem ask_same {α : Type} {find find' : Registry → Option α}
    (h : ∀ r r', Renamed f r r' → find r = find' r') :
    Act.Same (Renamed f) (ask find) (ask find') := by
  intro r r' hr
  have hfind := h r r' hr
  obtain ⟨devices, rfl, hdevices⟩ := hr
  refine ⟨?_, rfl, devices, rfl, hdevices⟩
  show (if r.offline then _ else Except.ok (find r)) = if r.offline then _ else Except.ok (find' _)
  rw [hfind]

/-- A question about a key under its new name has the same answer. -/
theorem question_same {R : σ → σ → Prop} {p : Part σ Registry}
    (hget : ∀ s t, R s t → Renamed f (p.get s) (p.get t))
    (hset : ∀ s t r r', R s t → Renamed f r r' → R (p.set r s) (p.set r' t)) (q : Query) :
    Act.Same R ((authority p).question q) (((authority p).renamed f).question q) := by
  cases q with
  | credential k =>
    refine (ask_same fun r r' hr => ?_).on hget hset
    obtain ⟨_, rfl, h⟩ := hr
    exact (h.image k).symm
  | _ =>
    refine (ask_same fun r r' hr => ?_).on hget hset
    obtain ⟨_, rfl, _⟩ := hr
    rfl

theorem Renamed.addDevice (h : Renamed f r r') (hf : f.Injective) (k : CredentialKey) (d : DeviceId)
    (g : GroupId) : Renamed f (r.addDevice k d g) (r'.addDevice (f k) d g) := by
  obtain ⟨devices, rfl, h⟩ := h
  have hput : Placed (fun _ _ => False) k (some d) _ _ := placed_insert r.devices k d
  have hput' : Placed (fun _ _ => False) (f k) (some d) _ _ := placed_insert devices (f k) d
  exact ⟨_, rfl, h.placed hf hput hput' fun j hj _ => ⟨id, id⟩⟩

theorem Renamed.removeDevice (h : Renamed f r r') (d : DeviceId) :
    Renamed f (r.removeDevice d) (r'.removeDevice d) := by
  obtain ⟨devices, rfl, h⟩ := h
  refine ⟨_, rfl, ?_⟩
  simp only [Registry.removeDevice, Std.ExtTreeMap.getElem?_filter']
  exact h.filter _

end Registry

end AccessCache
