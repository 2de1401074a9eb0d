import AccessCache.Proofs.Disk.Tables
import AccessCache.Proofs.Memory.Tables
import AccessCache.Proofs.Session.Mutation
import AccessCache.Proofs.Session.Twins

/-!
# Equivalence of caches

Sessions over caches in memory and over caches on disk show the same (`run_memory_eq_run_disk`), as
long as nothing interferes and no two texts of the session that are digested share a digest. The
worlds of the two stay twins from step to step (`act_agree`).
-/

namespace AccessCache

/-! ## Texts -/

def AccessRequest.texts (q : AccessRequest) : List String :=
  q.key.secret :: (q.profile.toList.map Id.text ++ q.member.toList.map Id.text)

/-- The edits that seed caches. -/
def Hierarchy.edits (h : Hierarchy) : List Edit :=
  [.save (.credential h.key h.device), .save (.deviceGroup h.device h.group),
    .save (.profileGroup h.profile h.group), .save (.groupOrg h.group h.org),
    .save (.role ⟨h.group, h.member⟩ h.role)]

def Hierarchy.texts (h : Hierarchy) : List String := h.edits.flatMap Edit.texts

namespace Session

/-- The texts of the identifiers in a step. -/
def Step.texts : Step → List String
  | .save f => f.texts
  | .resolve q => q.texts
  | .remove x => x.texts
  | .memberships m => [m.text]
  | .apply c => c.texts
  | .applyAll cs => cs.flatMap Change.texts
  | .access q => q.texts
  | .stage q => q.texts
  | .mutate m => m.texts
  | .seed h => h.texts
  | .register h => h.texts
  | .expectNotFound _ q => q.texts
  | .expectUnavailable _ q => q.texts
  | _ => []

/-- The step neither interferes with the caches nor looks behind them. -/
def Step.Plain : Step → Prop
  | .delay .. | .fault .. | .reopen | .sizes | .dump _ | .rawPut .. | .rawDelete .. => False
  | _ => True

/-- What can be seen after a step, but for its journal. -/
def Deployment.Report.seen (r : Deployment.Report) : Deployment.Report := { r with journal := [] }

/-! ## One step -/

/-- The caches of a deployment as one side. -/
abbrev Deployment.side (d : Deployment) (good : d.backend.State → Prop)
    (shared : String → String → Prop) : Side d.backend.State :=
  ⟨d.backend.caches, d.deadline, good, shared⟩

/-- Seeding is a run of edits. -/
theorem seed_traced {σ ρ : Type} {v : View σ ρ} {c : Caches σ} (hc : v.Serves c) {s : σ}
    (hs : v.good s) {h : Hierarchy} (hall : ∀ e ∈ h.edits, v.allowed e) :
    v.Traced s (fun _ => h.edits) ((h.seed c).run s) := by
  obtain ⟨h₁, hall⟩ := List.forall_mem_cons.mp hall
  obtain ⟨h₂, hall⟩ := List.forall_mem_cons.mp hall
  obtain ⟨h₃, hall⟩ := List.forall_mem_cons.mp hall
  obtain ⟨h₄, hall⟩ := List.forall_mem_cons.mp hall
  obtain ⟨h₅, _⟩ := List.forall_mem_cons.mp hall
  have hcredential := hc.edit hs h₁
  refine hcredential.bind fun _ _ => ?_
  have hdevice := hc.edit hcredential.good h₂
  refine hdevice.bind fun _ _ => ?_
  have hprofile := hc.edit hdevice.good h₃
  refine hprofile.bind fun _ _ => ?_
  have hgroup := hc.edit hprofile.good h₄
  exact hgroup.bind fun _ _ => hc.edit hgroup.good h₅

section Steps

variable {d d' : Deployment} {good : d.backend.State → Prop} {shared : String → String → Prop}
  {good' : d'.backend.State → Prop} {shared' : String → String → Prop} {known : String → Prop}

theorem change_agree {f : Registry → Registry}
    (hf : ∀ r, r.facts.Known known → (f r).facts.Known known) :
    Act.Agree (Twins (d.side good shared) (d'.side good' shared') known) Eq
      (d.change World.registryPart f) (d'.change World.registryPart f) := by
  intro w w' h
  have hregistry : w.registry = w'.registry := congrArg Prod.fst h.rest
  have hcounters : d.backend.caches.counters w.tables = d'.backend.caches.counters w'.tables :=
    congrArg Prod.snd h.rest
  refine ⟨rfl, ⟨h.good, h.calm, h.facts, Prod.ext ?_ hcounters⟩, hf _ h.registry⟩
  exact congrArg f hregistry

theorem register_known {h : Hierarchy} (hh : ∀ t ∈ h.texts, known t) {r : Registry}
    (hr : r.facts.Known known) : (h.register r).facts.Known known := by
  have hm : ∀ {c : Change}, c.direct ⊆ h.edits → ∀ t ∈ c.direct.flatMap Edit.texts, known t := by
    intro c hc t ht
    obtain ⟨e, he, ht⟩ := List.mem_flatMap.mp ht
    exact hh t (List.mem_flatMap.mpr ⟨e, hc he, ht⟩)
  have hdevice := Mutation.known_run (m := .addDevice h.key h.device h.group)
    (hm (c := .deviceConnected _ _ _) (by simp [Change.direct, Hierarchy.edits])) hr
  have hprofile := Mutation.known_run (m := .addProfile h.profile h.group)
    (hm (c := .profileAssigned _ _) (by simp [Change.direct, Hierarchy.edits])) hdevice
  have hgroup := Mutation.known_run (m := .addGroup h.group h.org)
    (hm (c := .groupAssigned _ _) (by simp [Change.direct, Hierarchy.edits])) hprofile
  exact Mutation.known_run (m := .assignRole ⟨h.group, h.member⟩ h.role)
    (hm (c := .roleAssigned _ _ _) (by simp [Change.direct, Hierarchy.edits])) hgroup

/-- Worlds that start from empty caches are twins. -/
theorem twins_start (hgood : good d.backend.fresh) (hgood' : good' d'.backend.fresh)
    (htotal : d.backend.caches.Total good) (htotal' : d'.backend.caches.Total good')
    (hfacts : d.backend.caches.facts d.backend.fresh = fun _ => none)
    (hfacts' : d'.backend.caches.facts d'.backend.fresh = fun _ => none)
    (hcounters : d.backend.caches.counters d.backend.fresh =
      d'.backend.caches.counters d'.backend.fresh) :
    Twins (d.side good shared) (d'.side good' shared') known d.start d'.start where
  good := by
    have hknown : (d.backend.caches.facts d.backend.fresh).Known known := by
      rw [hfacts]
      exact Facts.known_empty known
    have hknown' : (d'.backend.caches.facts d'.backend.fresh).Known known := by
      rw [hfacts']
      exact Facts.known_empty known
    exact ⟨⟨hgood, hknown⟩, ⟨hgood', hknown'⟩⟩
  calm := ⟨⟨htotal, rfl⟩, ⟨htotal', rfl⟩⟩
  facts := hfacts.trans hfacts'.symm
  rest := Prod.ext rfl hcounters
  registry q v hv := by cases q <;> cases hv

variable (ha : (d.side good shared).Exact known) (hb : (d'.side good' shared').Exact known)

include ha hb

theorem resolveText_agree (q : Query) :
    Act.Agree (Twins (d.side good shared) (d'.side good' shared') known) Eq (d.resolve q)
      (d'.resolve q) :=
  (lookup_agree ha hb q).map fun _ _ h => congrArg (Except.map Id.text) h.1

theorem walk_agree {q : Query} (hq : ∀ t ∈ q.texts, known t) :
    Agree (Twins (d.side good shared) (d'.side good' shared') known) Eq (d.walk q) (d'.walk q) := by
  have hstage := stageOf_agree ha hb hq
  cases q <;> exact hstage.map fun _ _ h => by rw [h.1]

theorem seed_agree {h : Hierarchy} (hh : ∀ t ∈ h.texts, known t) :
    Act.Agree (Twins (d.side good shared) (d'.side good' shared') known) Eq
      (h.seed d.caches).run (h.seed d'.caches).run := by
  have hall : ∀ e ∈ h.edits, ∀ t ∈ e.texts, known t := fun e he t ht =>
    hh t (List.mem_flatMap.mpr ⟨e, he, ht⟩)
  exact agree_of_traced ha hb (fun _ hw => seed_traced ha.serves hw hall)
    fun _ hw => seed_traced hb.serves hw hall

/-- A step has the same answer on both sides, and leads from twins to twins. -/
theorem act_agree {step : Step} (hplain : step.Plain) (htexts : ∀ t ∈ step.texts, known t) :
    Act.Agree (Twins (d.side good shared) (d'.side good' shared') known) Eq (d.act step)
      (d'.act step) := by
  cases step with
  | save f => exact (edit_agree ha hb (e := .save f) htexts).map fun _ _ h => congrArg _ h
  | resolve q => exact (resolveText_agree ha hb q).map fun _ _ h => congrArg _ h
  | remove x => exact (edit_agree ha hb (e := .remove x) htexts).map fun _ _ h => congrArg _ h
  | memberships m => exact (memberships_agree ha hb m).map fun _ _ h => congrArg _ h
  | statistics => exact fun w w' h => ⟨congrArg Answer.statistics (statistics_eq ha hb h), h⟩
  | apply c =>
    have hc : ∀ e ∈ c.direct, ∀ t ∈ e.texts, known t := fun e he t ht =>
      htexts t (Change.mem_texts he ht)
    exact (apply_agree ha hb hc d.backend.tour d'.backend.tour).map fun _ _ h => congrArg _ h
  | applyAll cs =>
    have hcs : ∀ c ∈ cs, ∀ e ∈ c.direct, ∀ t ∈ e.texts, known t := fun c hc e he t ht =>
      htexts t (List.mem_flatMap.mpr ⟨c, hc, Change.mem_texts he ht⟩)
    exact (applyAll_agree ha hb hcs d.backend.tour d'.backend.tour).map fun _ _ h => congrArg _ h
  | access q =>
    obtain ⟨hkey, hrest⟩ := List.forall_mem_cons.mp htexts
    obtain ⟨hprofile, hmember⟩ := List.forall_mem_append.mp hrest
    refine Act.Agree.map (resolve_agree ha hb hkey (fun p hp => hprofile _ ?_) fun m hm =>
      hmember _ ?_) fun _ _ h => congrArg _ h.eq
    · exact List.mem_map_of_mem (Option.mem_toList.mpr hp)
    · exact List.mem_map_of_mem (Option.mem_toList.mpr hm)
  | stage q =>
    exact Act.Agree.map (walk_agree ha hb htexts) fun _ _ h => congrArg _ h.eq
  | mutate m => exact change_agree fun r h => Mutation.known_run htexts h
  | seed h => exact (seed_agree ha hb htexts).map fun _ _ h => congrArg _ h
  | register h => exact change_agree fun r hr => register_known htexts hr
  | clear =>
    exact fun w w' h => ⟨rfl, ⟨h.good, ⟨⟨h.calm.1.1, rfl⟩, h.calm.2.1, rfl⟩, h.facts, h.rest⟩,
      h.registry⟩
  | expectEmpty =>
    exact fun w w' h => ⟨congrArg (fun s => Answer.ofExpectation (Expect.empty s))
      (statistics_eq ha hb h), h⟩
  | expectNotFound r q =>
    exact (resolveText_agree ha hb q).map fun _ _ h => congrArg _ h
  | expectUnavailable r q =>
    exact (resolveText_agree ha hb q).map fun _ _ h => congrArg _ h
  | _ => exact hplain.elim

/-- A run shows the same on both sides. -/
theorem run_eq {steps : List Step} (hplain : ∀ s ∈ steps, s.Plain)
    (htexts : ∀ s ∈ steps, ∀ t ∈ s.texts, known t) {w : d.World} {w' : d'.World}
    (h : Twins (d.side good shared) (d'.side good' shared') known w w') :
    (d.run steps w).map (·.seen) = (d'.run steps w').map (·.seen) := by
  induction steps generalizing d d' w w' with
  | nil => rfl
  | cons step steps ih =>
    obtain ⟨hstep, hplain⟩ := List.forall_mem_cons.mp hplain
    obtain ⟨hknown, htexts⟩ := List.forall_mem_cons.mp htexts
    obtain ⟨hanswer, htwins⟩ := act_agree ha hb hstep hknown w w' h
    have hstatistics : d.caches.statistics (d.act step w).state =
        d'.caches.statistics (d'.act step w').state := statistics_eq ha hb htwins
    have hregistry : (d.act step w).state.registry = (d'.act step w').state.registry :=
      congrArg Prod.fst htwins.rest
    have hseen : (d.take step w).1.seen = (d'.take step w').1.seen := by
      unfold Deployment.Report.seen Deployment.take
      simp only [hanswer, hstatistics, hregistry]
    -- the rest of a tour leaves the caches as they are
    have ha' : ((d.after step).side good shared).Exact known := ha
    have hb' : ((d'.after step).side good' shared').Exact known := hb
    exact congrArg₂ List.cons hseen (ih ha' hb' hplain htexts htwins)

end Steps

/-! ## Whole runs -/

theorem exact_memory (deadline : Option Duration) (known : String → Prop) :
    (⟨Memory.caches, deadline, Memory.Good, Eq⟩ : Side Memory.State).Exact known where
  regular := Memory.regular
  prompt := Tables.prompt _ _ _
  keeps := not_lossy_eq known

theorem exact_disk (deadline : Option Duration) {known : String → Prop}
    (hkeeps : ¬ Lossy Disk.Shared known) :
    (⟨Disk.caches none, deadline, Disk.Good, Disk.Shared⟩ : Side Disk.State).Exact known where
  regular := Disk.regular none
  prompt := Tables.prompt _ _ _
  keeps := hkeeps

/-- No two of the texts that are digested share their digest. -/
def Apart (texts : List String) : Prop :=
  ∀ s ∈ texts, ∀ t ∈ texts, ¬ Key.Inline s → ¬ Key.Inline t →
    Sha256.digest (utf8 s) = Sha256.digest (utf8 t) → s = t

theorem Apart.not_lossy {texts : List String} (h : Apart texts) :
    ¬ Lossy Disk.Shared (· ∈ texts) := by
  rintro ⟨s, t, hs, ht, hne, hshared⟩
  rcases Key.part_eq_part_iff.mp hshared with heq | ⟨hs', ht', hdigest⟩
  · exact hne heq
  · exact hne (h s hs t ht hs' ht' hdigest)

/-- Texts are apart where at most one of them is digested. -/
theorem apart_of_digested_eq {texts : List String} (u : String)
    (h : ∀ s ∈ texts, ¬ Key.Inline s → s = u) : Apart texts :=
  fun s hs t ht hs' ht' _ => (h s hs hs').trans (h t ht ht').symm

/-- Caches in memory and caches on disk show the same from beginning to end, journals apart. -/
theorem run_memory_eq_run_disk (opening opening' : List Entry) (atHand : Bool) (tour tour' : Tour)
    (timeout deadline deadline' : Option Duration) (steps : List Step)
    (hplain : ∀ s ∈ steps, s.Plain) (hapart : Apart (steps.flatMap Step.texts)) :
    let d : Deployment := ⟨{ Backend.memory opening atHand with tour := tour }, deadline⟩
    let d' : Deployment :=
      ⟨{ Backend.disk ((Disk.caches none).within timeout) opening' with tour := tour' }, deadline'⟩
    (d.run steps d.start).map (·.seen) = (d'.run steps d'.start).map (·.seen) := by
  rw [Disk.caches_within]
  intro d d'
  have hcounters : d.backend.caches.counters d.backend.fresh =
      d'.backend.caches.counters d'.backend.fresh := by
    funext r
    cases r <;> rfl
  have htwins : Twins (d.side Memory.Good Eq) (d'.side Disk.Good Disk.Shared)
      (· ∈ steps.flatMap Step.texts) d.start d'.start :=
    twins_start Memory.good_empty Disk.good_empty Memory.total Disk.total Memory.facts_empty
      (Disk.facts_empty none) hcounters
  exact run_eq (exact_memory deadline _) (exact_disk deadline' hapart.not_lossy) hplain
    (fun s hs t ht => List.mem_flatMap.mpr ⟨s, hs, ht⟩) htwins

/-- A key without text is saved, found, and removed with its device. -/
theorem run_memory_eq_run_disk_emptyKey :
    let steps : List Step := [.save (.credential ⟨""⟩ ⟨"device"⟩), .resolve (.credential ⟨""⟩),
      .remove (.credentials ⟨"device"⟩), .resolve (.credential ⟨""⟩)]
    let d : Deployment := ⟨.memory [] false, none⟩
    let d' : Deployment := ⟨.disk (Disk.caches none) [], none⟩
    (∀ s ∈ steps, s.Plain) ∧ Apart (steps.flatMap Step.texts) ∧
      (d'.run steps d'.start).map (·.answer) = (d.run steps d.start).map (·.answer) ∧
      (d.run steps d.start).map (·.answer) = [.done, .text "device", .done,
        .cacheFailed (.notFound .credential CredentialKey.placeholder)] := by
  intro steps d d'
  have hplain : ∀ s ∈ steps, s.Plain := by simp [steps, Step.Plain]
  have hapart : Apart (steps.flatMap Step.texts) := apart_of_digested_eq "" (by decide)
  have hsame := run_memory_eq_run_disk [] [] false .ascending .ascending none none none steps hplain
    hapart
  have hanswers := congrArg (List.map Deployment.Report.answer) hsame
  rw [List.map_map, List.map_map] at hanswers
  exact ⟨hplain, hapart, hanswers.symm, rfl⟩

end Session

end AccessCache
