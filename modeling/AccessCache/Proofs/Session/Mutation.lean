import AccessCache.Proofs.Change
import AccessCache.Proofs.Resolver
import AccessCache.Session.Step

/-!
# Mutations

A mutation does to the facts of the registry what the edits of its change do to those of caches
(`Mutation.facts_run`).
-/

namespace AccessCache

/-! ## Writing to registries -/

namespace Registry

/-- Writing one entry of a registry is an edit; `toQuery` says which queries its map answers. -/
theorem facts_of_placed {κ : Type} {n : Noun} {r r' : Registry} {e : Edit} {k : κ}
    {v : Option (Id n)} {f f' : κ → Option (Id n)} (toQuery : κ → Query)
    (h : Placed (fun _ _ => False) k v f f') (htarget : e.target = some (toQuery k))
    (hwritten : e.written = v.map Id.text) (hf : ∀ k, r.facts (toQuery k) = (f k).map Id.text)
    (hf' : ∀ k, r'.facts (toQuery k) = (f' k).map Id.text)
    (hrest : ∀ q, (∀ k, q ≠ toQuery k) → r'.facts q = r.facts q) (q : Query) :
    r'.facts q = e.on q (r.facts q) := by
  have heffect : e.Effect Eq r.facts r'.facts :=
    Edit.Effect.of_placed toQuery h htarget hwritten hf hf' hrest fun _ hclash => hclash.elim
  exact (heffect.kept (Facts.known_true _) (fun _ _ => trivial) q).eq_of_not (not_lossy_eq _)

variable (r : Registry) (q : Query)

theorem facts_addKey (k : CredentialKey) (d : DeviceId) :
    facts { r with devices := r.devices.insert k d } q =
      (Edit.save (.credential k d)).on q (r.facts q) := by
  refine facts_of_placed .credential (placed_insert r.devices k d) rfl rfl (fun _ => rfl)
    (fun _ => rfl) (fun q hq => ?_) q
  cases q with
  | credential k' => exact absurd rfl (hq k')
  | _ => rfl

/-- Forgetting the keys of a device filters the map by its values. -/
theorem facts_removeKeys (d : DeviceId) :
    facts { r with devices := r.devices.filter fun _ d' => d' ≠ d } q =
      (Edit.remove (.credentials d)).on q (r.facts q) := by
  cases q with
  | credential k =>
    show Option.map Id.text (r.devices.filter fun _ d' => d' ≠ d)[k]? = _
    rw [Std.ExtTreeMap.getElem?_filter']
    exact Edit.on_remove_credentials d k _
  | _ => exact (Edit.on_remove_of_not_takes fun _ => rfl).symm

theorem facts_moveDevice (d : DeviceId) (g : GroupId) :
    (r.moveDevice d g).facts q = (Edit.save (.deviceGroup d g)).on q (r.facts q) := by
  refine facts_of_placed .deviceGroup (placed_insert r.deviceGroups d g) rfl rfl (fun _ => rfl)
    (fun _ => rfl) (fun q hq => ?_) q
  cases q with
  | deviceGroup d' => exact absurd rfl (hq d')
  | _ => rfl

theorem facts_dropGroup (d : DeviceId) :
    facts { r with deviceGroups := r.deviceGroups.erase d } q =
      (Edit.remove (.deviceGroup d)).on q (r.facts q) := by
  refine facts_of_placed .deviceGroup (placed_erase r.deviceGroups d) rfl rfl (fun _ => rfl)
    (fun _ => rfl) (fun q hq => ?_) q
  cases q with
  | deviceGroup d' => exact absurd rfl (hq d')
  | _ => rfl

theorem facts_addProfile (p : ProfileId) (g : GroupId) :
    (r.addProfile p g).facts q = (Edit.save (.profileGroup p g)).on q (r.facts q) := by
  refine facts_of_placed .profileGroup (placed_insert r.profileGroups p g) rfl rfl (fun _ => rfl)
    (fun _ => rfl) (fun q hq => ?_) q
  cases q with
  | profileGroup p' => exact absurd rfl (hq p')
  | _ => rfl

theorem facts_addGroup (g : GroupId) (o : OrgId) :
    (r.addGroup g o).facts q = (Edit.save (.groupOrg g o)).on q (r.facts q) := by
  refine facts_of_placed .groupOrg (placed_insert r.groupOrgs g o) rfl rfl (fun _ => rfl)
    (fun _ => rfl) (fun q hq => ?_) q
  cases q with
  | groupOrg g' => exact absurd rfl (hq g')
  | _ => rfl

theorem facts_assignRole (k : RoleKey) (role : Role) :
    (r.assignRole k role).facts q = (Edit.save (.role k role)).on q (r.facts q) := by
  refine facts_of_placed .role (placed_insert r.roles k role) rfl rfl (fun _ => rfl)
    (fun _ => rfl) (fun q hq => ?_) q
  cases q with
  | role k' => exact absurd rfl (hq k')
  | _ => rfl

theorem facts_revokeRole (k : RoleKey) :
    (r.revokeRole k).facts q = (Edit.remove (.role k)).on q (r.facts q) := by
  refine facts_of_placed .role (placed_erase r.roles k) rfl rfl (fun _ => rfl) (fun _ => rfl)
    (fun q hq => ?_) q
  cases q with
  | role k' => exact absurd rfl (hq k')
  | _ => rfl

end Registry

/-! ## Mutations and changes -/

namespace Session.Mutation

/-- The change that carries a mutation over to the caches. -/
def change? : Mutation → Option Change
  | .addDevice k d g => some (.deviceConnected k d g)
  | .removeDevice d => some (.deviceRemoved d)
  | .moveDevice d g => some (.deviceReassigned d g)
  | .addProfile p g => some (.profileAssigned p g)
  | .addGroup g o => some (.groupAssigned g o)
  | .assignRole k r => some (.roleAssigned k.group k.member r)
  | .revokeRole k => some (.roleRevoked k.group k.member)
  | .setOffline _ => none

/-- A mutation does to the registry what the edits of its change do to caches. -/
theorem facts_run {m : Mutation} {c : Change} (h : m.change? = some c) (r : Registry) (q : Query) :
    (m.run r).facts q = Edit.run q (c.edits q) (r.facts q) := by
  cases m with
  | addDevice k d g =>
    cases h
    let r' : Registry := { r with devices := r.devices.insert k d }
    calc (r'.moveDevice d g).facts q
        = (Edit.save (.deviceGroup d g)).on q (r'.facts q) := r'.facts_moveDevice q d g
      _ = Edit.run q (Change.deviceConnected k d g).direct (r.facts q) :=
          congrArg _ (r.facts_addKey q k d)
  | removeDevice d =>
    cases h
    let r' : Registry := { r with devices := r.devices.filter fun _ d' => d' ≠ d }
    calc Registry.facts { r' with deviceGroups := r'.deviceGroups.erase d } q
        = (Edit.remove (.deviceGroup d)).on q (r'.facts q) := r'.facts_dropGroup q d
      _ = Edit.run q (Change.deviceRemoved d).direct (r.facts q) :=
          congrArg _ (r.facts_removeKeys q d)
  | moveDevice d g =>
    cases h
    exact r.facts_moveDevice q d g
  | addProfile p g =>
    cases h
    exact r.facts_addProfile q p g
  | addGroup g o =>
    cases h
    exact r.facts_addGroup q g o
  | assignRole k role =>
    cases h
    exact r.facts_assignRole q k role
  | revokeRole k =>
    cases h
    exact r.facts_revokeRole q k
  | setOffline b => cases h

/-- The texts of the identifiers in a mutation. -/
def texts (m : Mutation) : List String := m.change?.elim [] Change.texts

/-- A mutation adds no texts to the registry but its own. -/
theorem known_run {known : String → Prop} {m : Mutation} (hm : ∀ t ∈ m.texts, known t)
    {r : Registry} (h : r.facts.Known known) : (m.run r).facts.Known known := by
  cases hc : m.change? with
  | none =>
    cases m with
    | setOffline b => exact h
    | _ => cases hc
  | some c =>
    have hdirect : ∀ q, c.edits q = c.direct := fun q => by cases m <;> cases hc <;> rfl
    have htexts : m.texts = c.texts := by rw [texts, hc]; rfl
    have hfacts : (m.run r).facts = fun q => Edit.run q c.direct (r.facts q) := by
      funext q
      rw [facts_run hc, hdirect]
    rw [hfacts]
    exact h.run fun e he t ht => hm t (htexts ▸ Change.mem_texts he ht)

end Session.Mutation

end AccessCache
