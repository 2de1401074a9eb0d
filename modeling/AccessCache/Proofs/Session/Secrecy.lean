import AccessCache.Proofs.Renaming
import AccessCache.Proofs.Session.Equivalence

/-!
# Secrecy of keys

Sessions show nothing of the secrets of keys: with every key renamed, in the steps and in the
registry, a session shows exactly the same, its journal included (`run_rename`). The worlds of the
two runs hold the same entries, in the one under the new names of their keys (`act_same`).
-/

namespace AccessCache

variable {β : Type} {f : CredentialKey → CredentialKey} {known : CredentialKey → Prop}
  {R : β → β → Prop}

/-! ## Worlds -/

/-- Worlds with related tables, of which the second has the keys of its registry renamed. -/
structure World.Renamed (f : CredentialKey → CredentialKey) (R : β → β → Prop) (w w' : World β) :
    Prop where
  tables : R w.tables w'.tables
  plan : w'.plan = w.plan
  registry : w.registry.Renamed f w'.registry

section Calls

variable {α : Type} {c c' : Call β α} (h : Act.Same R c.act c'.act) (r : Relation) (m : Method)

include h

theorem Call.interfered_same :
    Act.Same (World.Renamed f R) ((c.on World.tablesPart).interfered World.planPart r m).act
      ((c'.on World.tablesPart).interfered World.planPart r m).act := by
  intro w w' hw
  rw [Call.act_interfered, Call.act_interfered, hw.plan]
  rcases w.plan.next r m with ⟨_ | e, p⟩
  · obtain ⟨hvalue, hjournal, hR⟩ := h _ _ hw.tables
    exact ⟨hvalue, hjournal, hR, rfl, hw.registry⟩
  · exact ⟨rfl, rfl, hw.tables, rfl, hw.registry⟩

/-- Calls that do not wait are given up together, or take place together. -/
theorem Call.inWorld_same (hc : ∀ s, c.wait s = 0) (hc' : ∀ s, c'.wait s = 0)
    (deadline : Option Duration) :
    Act.Same (World.Renamed f R) (c.inWorld deadline r m).act (c'.inWorld deadline r m).act := by
  have hinterfered := interfered_same (f := f) h r m
  cases deadline with
  | none => exact hinterfered
  | some d =>
    intro w w' hw
    have hwait : ((c'.on World.tablesPart).interfered World.planPart r m).wait w' =
        ((c.on World.tablesPart).interfered World.planPart r m).wait w := by
      show w'.plan.delay r m * 1000000 + c'.wait w'.tables =
        w.plan.delay r m * 1000000 + c.wait w.tables
      rw [hw.plan, hc, hc']
    by_cases hlate : d.nanoseconds < ((c.on World.tablesPart).interfered World.planPart r m).wait w
    · have hlate' := hlate
      rw [← hwait] at hlate'
      simp only [Call.inWorld, Call.bounded_act_of_lt hlate, Call.bounded_act_of_lt hlate']
      exact ⟨rfl, rfl, hw⟩
    · have hle := Nat.not_lt.mp hlate
      have hle' := hle
      rw [← hwait] at hle'
      simp only [Call.inWorld, Call.bounded_act_of_le hle, Call.bounded_act_of_le hle']
      exact hinterfered w w' hw

end Calls

theorem Caches.Same.inWorld {c c' : Caches β} (h : Caches.Same R known c c') (hc : c.Prompt)
    (hc' : c'.Prompt) (deadline : Option Duration) :
    Caches.Same (World.Renamed f R) known (c.inWorld deadline) (c'.inWorld deadline) where
  edit e he := by
    rw [edit_inWorld, edit_inWorld]
    exact Call.inWorld_same (h.edit e he) _ _ (hc.edit e) (hc'.edit e) _
  lookup q := by
    rw [lookup_inWorld, lookup_inWorld]
    exact Call.inWorld_same (h.lookup q) _ _ (hc.lookup q) (hc'.lookup q) _
  memberships m := by
    rw [membershipsOf_inWorld, membershipsOf_inWorld]
    exact Call.inWorld_same (h.memberships m) _ _ (hc.memberships m) (hc'.memberships m) _
  statistics w w' hw := by
    rw [statistics_inWorld, statistics_inWorld]
    exact h.statistics _ _ hw.tables

theorem Caches.Prompt.renamed {c : Caches β} (h : c.Prompt) : (c.renamed f).Prompt where
  lookup q s := by
    cases q with
    | credential k => exact h.lookup (.credential (f k)) s
    | deviceGroup d => exact h.lookup (.deviceGroup d) s
    | profileGroup p => exact h.lookup (.profileGroup p) s
    | groupOrg g => exact h.lookup (.groupOrg g) s
    | role k => exact h.lookup (.role k) s
  edit e s := by
    rw [edit_renamed]
    exact h.edit (e.rename f) s
  memberships := h.memberships

/-- A backend that shows the same whether or not the keys that it is given are renamed. -/
structure Backend.Discreet (b : Backend) (f : CredentialKey → CredentialKey)
    (known : CredentialKey → Prop) (R : b.State → b.State → Prop) : Prop where
  same : Caches.Same R known b.caches (b.caches.renamed f)
  prompt : b.caches.Prompt
  fresh : R b.fresh b.fresh
  reopened : ∀ {s t}, R s t → R (b.reopened s) (b.reopened t)
  sizes : ∀ {s t}, R s t → b.sizes s = b.sizes t

namespace Session

/-! ## Steps -/

def Mutation.rename (f : CredentialKey → CredentialKey) : Mutation → Mutation
  | .addDevice k d g => .addDevice (f k) d g
  | m => m

/-- The step with every key in it renamed. -/
def Step.rename (f : CredentialKey → CredentialKey) : Step → Step
  | .save x => .save (x.rename f)
  | .resolve q => .resolve (q.rename f)
  | .apply c => .apply (c.rename f)
  | .applyAll cs => .applyAll (cs.map (·.rename f))
  | .access q => .access (q.rename f)
  | .stage q => .stage (q.rename f)
  | .mutate m => .mutate (m.rename f)
  | .seed h => .seed (h.rename f)
  | .register h => .register (h.rename f)
  | .expectNotFound r q => .expectNotFound r (q.rename f)
  | .expectUnavailable r q => .expectUnavailable r (q.rename f)
  | step => step

/-- Renaming keys leaves the number of changes. -/
theorem Step.turns_rename (f : CredentialKey → CredentialKey) (s : Step) :
    (s.rename f).turns = s.turns := by
  cases s with
  | applyAll cs => exact List.length_map _
  | _ => rfl

/-- The keys that a step may save into a cache. -/
def Step.keys : Step → List CredentialKey
  | .save x => (Edit.save x).keys
  | .apply c => c.keys
  | .applyAll cs => cs.flatMap Change.keys
  | .access q => [q.key]
  | .stage q => q.keys
  | .seed h => [h.key]
  | _ => []

/-- The step looks behind the caches, or writes there. -/
def Step.Behind : Step → Prop
  | .dump _ | .rawPut .. | .rawDelete .. => True
  | _ => False

section Steps

variable {d : Deployment} {R : d.backend.State → d.backend.State → Prop}

/-- Mutations rename the keys that they add. -/
theorem renamed_run (hf : f.Injective) {r r' : Registry} (h : r.Renamed f r') (m : Mutation) :
    (m.run r).Renamed f ((m.rename f).run r') := by
  cases m with
  | addDevice k d g => exact h.addDevice hf k d g
  | removeDevice d => exact h.removeDevice d
  | _ =>
    obtain ⟨devices, rfl, h⟩ := h
    exact ⟨devices, rfl, h⟩

theorem change_registry_same {g g' : Registry → Registry}
    (h : ∀ r r', Registry.Renamed f r r' → (g r).Renamed f (g' r')) :
    Act.Same (World.Renamed f R) (d.change World.registryPart g)
      (d.change World.registryPart g') :=
  fun _ _ hw => ⟨rfl, rfl, hw.tables, hw.plan, h _ _ hw.registry⟩

theorem change_plan_same (g : Plan → Plan) :
    Act.Same (World.Renamed f R) (d.change World.planPart g) (d.change World.planPart g) :=
  fun _ _ hw => ⟨rfl, rfl, hw.tables, congrArg g hw.plan, hw.registry⟩

variable (hb : d.backend.Discreet f known R)

include hb

theorem caches_same : Caches.Same (World.Renamed f R) known d.caches (d.caches.renamed f) := by
  have h : Caches.Same (World.Renamed f R) known d.caches
      ((d.backend.caches.renamed f).inWorld d.deadline) :=
    hb.same.inWorld hb.prompt hb.prompt.renamed d.deadline
  rwa [Caches.inWorld_renamed] at h

theorem resolver_same :
    Resolver.Same (World.Renamed f R) known d.resolver (d.resolver.renamed f) where
  caches := caches_same hb
  question := Registry.question_same (fun _ _ hw => hw.registry)
    fun _ _ _ _ hw h => ⟨hw.tables, hw.plan, h⟩

theorem edit_same {e : Edit} (he : ∀ k ∈ e.keys, known k) :
    Act.Same (World.Renamed f R) (d.caches.edit e).act (d.caches.edit (e.rename f)).act := by
  rw [← Caches.edit_renamed]
  exact (caches_same hb).edit e he

theorem resolveText_same (q : Query) :
    Act.Same (World.Renamed f R) (d.resolve q) (d.resolve (q.rename f)) := by
  rw [Deployment.resolve, Deployment.resolve, ← Caches.lookup_renamed]
  exact ((caches_same hb).lookup q).map _

theorem walk_same {q : Query} (hq : ∀ k ∈ q.keys, known k) :
    AccessCache.Same (World.Renamed f R) (d.walk q) (d.walk (q.rename f)) := by
  have hstage := (resolver_same hb).stageOf hq
  cases q <;> exact hstage.map _

/-- A step with renamed keys shows the same. -/
theorem act_same (hf : f.Injective) {step : Step} (hkeys : ∀ k ∈ step.keys, known k)
    (hbehind : step.Behind → ∀ r, d.backend.databases r = []) :
    Act.Same (World.Renamed f R) (d.act step) (d.act (step.rename f)) := by
  have hcaches := caches_same hb
  -- a step that looks behind the caches finds no database there
  have hno : step.Behind → ∀ r name, d.database? r name = none := fun h r name => by
    rw [Deployment.database?, hbehind h r]
    rfl
  cases step with
  | save x => exact (edit_same hb (e := .save x) hkeys).map _
  | resolve q => exact (resolveText_same hb q).map _
  | remove x => exact (edit_same hb (e := .remove x) nofun).map _
  | memberships m => exact (hcaches.memberships m).map _
  | statistics =>
    exact fun w w' hw => ⟨congrArg Answer.statistics (hcaches.statistics w w' hw), rfl, hw⟩
  | apply c =>
    have happly := hcaches.apply d.backend.tour hkeys
    rw [← Caches.apply_rename] at happly
    exact Act.Same.map _ happly
  | applyAll cs =>
    have hknown : ∀ c ∈ cs, ∀ k ∈ c.keys, known k := fun c hc k hk =>
      hkeys k (List.mem_flatMap.mpr ⟨c, hc, hk⟩)
    have happly := hcaches.applyAll d.backend.tour hknown
    rw [← Caches.applyAll_rename] at happly
    exact Act.Same.map _ happly
  | access q =>
    have hresolve := (resolver_same hb).resolve (q := q) (hkeys _ List.mem_cons_self)
    rw [← Resolver.resolve_rename] at hresolve
    exact Act.Same.map _ hresolve
  | stage q => exact Act.Same.map _ (walk_same hb hkeys)
  | mutate m => exact change_registry_same fun r r' h => renamed_run hf h m
  | seed h =>
    have hseed := hcaches.seed (x := h) (hkeys _ List.mem_cons_self)
    rw [← Caches.seed_rename] at hseed
    exact Act.Same.map _ hseed
  | register h =>
    refine change_registry_same fun r r' hr => ?_
    obtain ⟨devices, hadded, hr⟩ := hr.addDevice hf h.key h.device h.group
    exact ⟨devices, by rw [Hierarchy.register, Hierarchy.rename, hadded]; rfl, hr⟩
  | delay r ms t => exact change_plan_same _
  | fault r ms x => exact change_plan_same _
  | clear => exact change_plan_same _
  | reopen => exact fun w w' hw => ⟨rfl, rfl, hb.reopened hw.tables, hw.plan, hw.registry⟩
  | sizes =>
    intro w w' hw
    simp only [Deployment.act, Step.rename, Act.bind_apply, Act.observe]
    rw [hb.sizes hw.tables]
    cases d.backend.sizes w'.tables <;> exact ⟨rfl, rfl, hw⟩
  | dump r =>
    simp only [Deployment.act, Step.rename]
    rw [hbehind trivial r]
    exact fun w w' hw => ⟨rfl, rfl, hw⟩
  | rawPut r name key value =>
    simp only [Deployment.act, Step.rename]
    rw [hno trivial r name]
    exact .pure _
  | rawDelete r name key =>
    simp only [Deployment.act, Step.rename]
    rw [hno trivial r name]
    exact .pure _
  | expectEmpty =>
    exact fun w w' hw => ⟨congrArg (fun s => Answer.ofExpectation (Expect.empty s))
      (hcaches.statistics w w' hw), rfl, hw⟩
  | expectNotFound r q => exact (resolveText_same hb q).map _
  | expectUnavailable r q => exact (resolveText_same hb q).map _

/-- A run with renamed keys shows the same. -/
theorem run_eq_of_renamed (hf : f.Injective) {steps : List Step}
    (hkeys : ∀ s ∈ steps, ∀ k ∈ s.keys, known k)
    (hbehind : ∀ s ∈ steps, s.Behind → ∀ r, d.backend.databases r = []) {w w' : d.World}
    (hw : World.Renamed f R w w') : d.run (steps.map (·.rename f)) w' = d.run steps w := by
  induction steps generalizing d w w' with
  | nil => rfl
  | cons step steps ih =>
    obtain ⟨hstep, hkeys⟩ := List.forall_mem_cons.mp hkeys
    obtain ⟨hclosed, hbehind⟩ := List.forall_mem_cons.mp hbehind
    obtain ⟨hvalue, hjournal, hafter⟩ := act_same hb hf hstep hclosed w w' hw
    have hstatistics : d.caches.statistics (d.act step w).state =
        d.caches.statistics (d.act (step.rename f) w').state :=
      (caches_same hb).statistics _ _ hafter
    have hlookups : (d.act (step.rename f) w').state.registry.lookups =
        (d.act step w).state.registry.lookups := by
      obtain ⟨_, heq, _⟩ := hafter.registry
      rw [heq]
    have htake : (d.take (step.rename f) w').1 = (d.take step w).1 := by
      unfold Deployment.take
      simp only [hvalue, hjournal, hstatistics, hlookups]
    -- the rest of a tour leaves the caches as they are
    have hb' : (d.after step).backend.Discreet f known R :=
      ⟨hb.same, hb.prompt, hb.fresh, hb.reopened, hb.sizes⟩
    have hrest : (d.after (step.rename f)).run (steps.map (·.rename f))
        (d.act (step.rename f) w').state = (d.after step).run steps (d.act step w).state := by
      unfold Deployment.after
      rw [Step.turns_rename]
      exact ih hb' hkeys hbehind hafter
    exact congrArg₂ List.cons htake hrest

end Steps

/-! ## Backends -/

/-- Tables in memory, in the second state under renamed keys. -/
abbrev MemoryRenamed (f : CredentialKey → CredentialKey) : Memory.State → Memory.State → Prop :=
  Tables.Beside
    (CredentialTable.Renamed Memory.Credentials.Mirrored (fun t k => t.find k) f fun _ => True)

/-- Tables on disk, in the second state under renamed keys. -/
abbrev DiskRenamed (f : CredentialKey → CredentialKey) (known : CredentialKey → Prop) :
    Disk.State → Disk.State → Prop :=
  Tables.Beside
    (CredentialTable.Renamed Disk.Credentials.Lockstep Disk.Credentials.view f known)

theorem discreet_memory (hf : f.Injective) (opening : List Entry) (atHand : Bool) (tour : Tour) :
    Backend.Discreet { Backend.memory opening atHand with tour := tour } f (fun _ => True)
      (MemoryRenamed f) := by
  have hsame : Memory.credentialTable.Same _ (fun _ => True) (Memory.credentialTable.renamed f) :=
    Memory.credentialTable_lawful.renamed_same hf (fun _ _ _ => ⟨_, rfl⟩) fun k j _ _ hne =>
      ⟨fun h => hne (CredentialKey.secret_inj h).symm,
        fun h => hne (hf (CredentialKey.secret_inj h)).symm⟩
  have hfresh : MemoryRenamed f Memory.empty Memory.empty :=
    ⟨⟨CredentialTable.renamed_empty Memory.Credentials.mirrored_empty fun _ => rfl, rfl⟩,
      rfl, rfl, rfl, rfl⟩
  have hcaches : Caches.Same (MemoryRenamed f) (fun _ => True) Memory.caches
      (Memory.caches.renamed f) := by
    rw [Memory.caches, Tables.caches_renamed]
    exact Tables.caches_same hsame _ _
  refine ⟨hcaches, Tables.prompt _ _ _, hfresh, fun _ => hfresh, fun {s t} h => ?_⟩
  have hsizes : Memory.sizes s = Memory.sizes t := by
    have hsize : s.credentials.table.size = t.credentials.table.size := hsame.size h.credentials.1
    unfold Memory.sizes
    rw [hsize, h.deviceGroups, h.profileGroups, h.groupOrgs, h.roles]
  exact congrArg (fun ns => if atHand then some ns else none) hsizes

theorem DiskRenamed.recounted {s t : Disk.State} (h : DiskRenamed f known s t) :
    DiskRenamed f known s.recounted t.recounted where
  credentials := ⟨h.credentials.1, rfl⟩
  deviceGroups := congrArg (fun c => Counted.mk c.table {}) h.deviceGroups
  profileGroups := congrArg (fun c => Counted.mk c.table {}) h.profileGroups
  groupOrgs := congrArg (fun c => Counted.mk c.table {}) h.groupOrgs
  roles := congrArg (fun c => Counted.mk c.table {}) h.roles

theorem discreet_disk (hf : f.Injective) (opening : List Entry) (tour : Tour)
    (hapart : ∀ k j, known k → known j → j ≠ k →
      ¬ Disk.Shared k.secret j.secret ∧ ¬ Disk.Shared (f k).secret (f j).secret) :
    Backend.Discreet { Backend.disk (Disk.caches none) opening with tour := tour } f known
      (DiskRenamed f known) := by
  have hsame : (Disk.credentialTable none).Same _ known ((Disk.credentialTable none).renamed f) :=
    (Disk.credentialTable_lawful none).renamed_same hf (fun hs k d => hs.exists_save k d) hapart
  have hfresh : DiskRenamed f known Disk.empty Disk.empty :=
    ⟨⟨CredentialTable.renamed_empty Disk.Credentials.lockstep_empty fun _ => rfl, rfl⟩,
      rfl, rfl, rfl, rfl⟩
  have hcaches : Caches.Same (DiskRenamed f known) known (Disk.caches none)
      ((Disk.caches none).renamed f) := by
    rw [Disk.caches, Tables.caches_renamed]
    exact Tables.caches_same hsame _ _
  exact ⟨hcaches, Tables.prompt _ _ _, hfresh, fun h => h.recounted, fun _ => rfl⟩

/-! ## Whole runs -/

/-- Texts of keys that are apart stand in places of their own. -/
theorem Apart.not_shared {keys : List CredentialKey} {g : CredentialKey → CredentialKey}
    (hg : g.Injective) (h : Apart (keys.map fun k => (g k).secret)) {k j : CredentialKey}
    (hk : k ∈ keys) (hj : j ∈ keys) (hne : j ≠ k) :
    ¬ Disk.Shared (g k).secret (g j).secret := by
  intro hshared
  have htexts : (g k).secret ≠ (g j).secret := fun heq =>
    hne (hg (CredentialKey.secret_inj heq)).symm
  exact h.not_lossy ⟨_, _, List.mem_map.mpr ⟨k, hk, rfl⟩, List.mem_map.mpr ⟨j, hj, rfl⟩, htexts,
    hshared⟩

/-- Renaming all keys, in the steps and in the registry, changes nothing that can be seen: no
answer, no statistics, no number of questions and no entry of the journal. On disk no two of the
keys may share a digest, before or after they are renamed. -/
theorem run_rename (hf : f.Injective) (opening : List Entry) (tour : Tour)
    (deadline : Option Duration) (registry : Registry) (steps : List Step) :
    (∀ atHand,
      let d : Deployment := ⟨{ Backend.memory opening atHand with tour := tour }, deadline⟩
      d.run (steps.map (·.rename f)) { d.start with registry := registry.rename f } =
        d.run steps { d.start with registry := registry }) ∧
    ∀ timeout, (∀ s ∈ steps, ¬ s.Behind) →
      Apart ((steps.flatMap Step.keys).map fun k => k.secret) →
      Apart ((steps.flatMap Step.keys).map fun k => (f k).secret) →
      let d : Deployment :=
        ⟨{ Backend.disk ((Disk.caches none).within timeout) opening with tour := tour }, deadline⟩
      d.run (steps.map (·.rename f)) { d.start with registry := registry.rename f } =
        d.run steps { d.start with registry := registry } := by
  have hregistry := Registry.renamed_rename hf registry
  constructor
  · intro atHand d
    have hb := discreet_memory hf opening atHand tour
    exact run_eq_of_renamed hb hf (fun _ _ _ _ => trivial) (fun _ _ _ _ => rfl)
      ⟨hb.fresh, rfl, hregistry⟩
  · intro timeout hbehind hapart hapart'
    rw [Disk.caches_within]
    intro d
    have hb : Backend.Discreet _ f (· ∈ steps.flatMap Step.keys) _ :=
      discreet_disk hf opening tour fun k j hk hj hne =>
        ⟨hapart.not_shared Function.injective_id hk hj hne, hapart'.not_shared hf hk hj hne⟩
    exact run_eq_of_renamed hb hf (fun s hs k hk => List.mem_flatMap.mpr ⟨s, hs, hk⟩)
      (fun s hs h => absurd h (hbehind s hs)) ⟨hb.fresh, rfl, hregistry⟩

/-- A key that the registry knows is looked up through a fault, saved, and removed with its device;
under a longer name it shows the same in memory and on disk. -/
theorem run_rename_lengthened :
    let f : CredentialKey → CredentialKey := fun k => ⟨"longer " ++ k.secret⟩
    let steps : List Step := [.fault .credential [.resolve] ⟨.unavailable "down", 0, some 1⟩,
      .stage (.credential ⟨"key"⟩), .stage (.credential ⟨"key"⟩), .resolve (.credential ⟨"key"⟩),
      .remove (.credentials ⟨"device"⟩), .resolve (.credential ⟨"key"⟩)]
    let registry : Registry := Registry.addDevice ⟨"key"⟩ ⟨"device"⟩ ⟨"group"⟩ {}
    let d : Deployment := ⟨.memory [] false, none⟩
    let d' : Deployment := ⟨.disk (Disk.caches none) [], none⟩
    f.Injective ∧ (∀ s ∈ steps, ¬ s.Behind) ∧
      Apart ((steps.flatMap Step.keys).map fun k => k.secret) ∧
      Apart ((steps.flatMap Step.keys).map fun k => (f k).secret) ∧
      d'.run (steps.map (·.rename f)) { d'.start with registry := registry.rename f } =
        d'.run steps { d'.start with registry := registry } ∧
      (d.run (steps.map (·.rename f)) { d.start with registry := registry.rename f }).map
          (·.answer) =
        [.done, .staged "device" false, .staged "device" false, .text "device", .done,
          .cacheFailed (.notFound .credential CredentialKey.placeholder)] := by
  intro f steps registry d d'
  have hf : f.Injective := by
    intro k j h
    exact CredentialKey.secret_inj ((String.append_right_inj _).mp (congrArg (·.secret) h))
  have hbehind : ∀ s ∈ steps, ¬ s.Behind := by simp [steps, Step.Behind]
  have hapart : Apart ((steps.flatMap Step.keys).map fun k => k.secret) :=
    apart_of_digested_eq "" (by decide)
  have hapart' : Apart ((steps.flatMap Step.keys).map fun k => (f k).secret) :=
    apart_of_digested_eq "" (by decide)
  obtain ⟨hmemory, hdisk⟩ := run_rename hf [] .ascending none registry steps
  refine ⟨hf, hbehind, hapart, hapart', hdisk none hbehind hapart hapart', ?_⟩
  have hrun : d.run (steps.map (·.rename f)) { d.start with registry := registry.rename f } =
      d.run steps { d.start with registry := registry } := hmemory false
  rw [hrun]
  -- the run is computed from the values themselves, not through their names
  subst steps registry d
  rfl

end Session

end AccessCache
