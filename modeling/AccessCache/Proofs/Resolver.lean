import AccessCache.Authority.Registry
import AccessCache.Proofs.Act
import AccessCache.Proofs.Facts
import AccessCache.Resolver

/-!
# Stages of one form

The five stages of the walk differ in the query that they answer, and a registry is asked for all
of them alike. What a stage comes to follows from three acts: the lookup, the question, and the
save of the answer (`Resolver.stageOf_hit`, `Resolver.stageOf_saved`, `Resolver.stageOf_passed`).
-/

namespace AccessCache

/-! ## Questions -/

/-- What a stage says of an entry that nobody knows. -/
def Query.absent : Query → AccessError
  | .credential _ => .unknown .credential CredentialKey.placeholder
  | .deviceGroup d => .unknown .deviceGroup d.text
  | .profileGroup p => .unknown .profileGroup p.text
  | .groupOrg g => .unknown .groupOrg g.text
  | .role k => .noRole k.group k.member

def Authority.question {σ : Type} (a : Authority σ) : (q : Query) → Act σ (Answer (Id q.noun))
  | .credential k => a.deviceOfKey k
  | .deviceGroup d => a.groupOfDevice d
  | .profileGroup p => a.groupOfProfile p
  | .groupOrg g => a.orgOfGroup g
  | .role k => a.roleOf k

namespace Registry

def find (r : Registry) : (q : Query) → Option (Id q.noun)
  | .credential k => r.devices[k]?
  | .deviceGroup d => r.deviceGroups[d]?
  | .profileGroup p => r.profileGroups[p]?
  | .groupOrg g => r.groupOrgs[g]?
  | .role k => r.roles[k]?

/-- The facts of which the registry is the owner. -/
def facts (r : Registry) : Facts := fun q => (r.find q).map Id.text

/-- What the registry says to a question, if it is not offline. -/
def answer (r : Registry) (q : Query) : Except AccessError (Id q.noun) :=
  match r.find q with
  | some a => .ok a
  | none => .error q.absent

/-- The registry after a question. -/
def asked (r : Registry) : Registry := { r with lookups := r.lookups + 1 }

variable {σ : Type}

theorem question_authority (p : Part σ Registry) (q : Query) (s : σ) :
    ((authority p).question q s).value =
        (if (p.get s).offline then .error outage else .ok ((p.get s).find q)) ∧
      ((authority p).question q s).state = p.set (p.get s).asked s := by
  cases q <;> exact ⟨rfl, rfl⟩

@[simp] theorem find_asked (r : Registry) (q : Query) : r.asked.find q = r.find q := by
  cases q <;> rfl

@[simp] theorem facts_asked (r : Registry) : r.asked.facts = r.facts := by
  funext q
  rw [facts, find_asked]
  rfl

end Registry

/-! ## Stages -/

namespace Resolver

variable {σ α : Type}

/-- The stage that answers a query. -/
def stageOf (r : Resolver σ) (q : Query) : Walk σ (Id q.noun × Bool) :=
  stage (r.caches.lookup q) (r.authority.question q) (fun a => r.caches.save (q.fact a)) q.absent

variable {s : σ}

/-- What a stage makes of the answer of the authority. -/
def known (absent : AccessError) : Answer α → Except AccessError α
  | .error e => .error (.source e.reason)
  | .ok none => .error absent
  | .ok (some a) => .ok a

theorem ask_run (question : Act σ (Answer α)) (absent : AccessError) :
    ((ask question absent).run s).value = known absent (question s).value ∧
      ((ask question absent).run s).state = (question s).state := by
  unfold ask
  rw [run_lift_bind_value, run_lift_bind_state]
  cases (question s).value with
  | error e => exact ⟨rfl, rfl⟩
  | ok o => cases o <;> exact ⟨rfl, rfl⟩

theorem writeThrough_run (c : Call σ Unit) :
    ((writeThrough c).run s).value = .ok () ∧
      ((writeThrough c).run s).state = (c.act s).state := by
  unfold writeThrough
  rw [run_lift_bind_value, run_lift_bind_state]
  cases (c.act s).value <;> exact ⟨rfl, rfl⟩

variable {r : Resolver σ} {q : Query}

/-- An entry that the cache holds is the answer. -/
theorem stageOf_hit {a : Id q.noun} (h : ((r.caches.lookup q).act s).value = .ok a) :
    ((r.stageOf q).run s).value = .ok (a, true) ∧
      ((r.stageOf q).run s).state = ((r.caches.lookup q).act s).state := by
  unfold stageOf stage
  rw [run_lift_bind_value, run_lift_bind_state, h]
  exact ⟨rfl, rfl⟩

/-- What the cache has not found and the authority has is written through. -/
theorem stageOf_saved {rel : Relation} {k : String} {a : Id q.noun}
    (h : ((r.caches.lookup q).act s).value = .error (.notFound rel k))
    (ha : (r.authority.question q ((r.caches.lookup q).act s).state).value = .ok (some a)) :
    let asked := r.authority.question q ((r.caches.lookup q).act s).state
    ((r.stageOf q).run s).value = .ok (a, false) ∧
      ((r.stageOf q).run s).state = ((r.caches.save (q.fact a)).act asked.state).state := by
  unfold stageOf stage
  rw [run_lift_bind_value, run_lift_bind_state, h]
  simp only
  rw [run_bind_value, run_bind_state, (ask_run _ _).1, (ask_run _ _).2, ha]
  simp only [known]
  rw [run_bind_value, run_bind_state, (writeThrough_run _).1, (writeThrough_run _).2]
  exact ⟨rfl, rfl⟩

/-- Nothing is written where the cache cannot be used or the authority has no answer. -/
theorem stageOf_passed {e : CacheError} (h : ((r.caches.lookup q).act s).value = .error e)
    (hno : e.isNotFound → ∀ a,
      (r.authority.question q ((r.caches.lookup q).act s).state).value ≠ .ok (some a)) :
    let asked := r.authority.question q ((r.caches.lookup q).act s).state
    ((r.stageOf q).run s).value = (known q.absent asked.value).map (·, false) ∧
      ((r.stageOf q).run s).state = asked.state := by
  unfold stageOf stage
  rw [run_lift_bind_value, run_lift_bind_state, h]
  cases e with
  | notFound _ _ =>
    simp only
    rw [run_bind_value, run_bind_state, (ask_run _ _).1, (ask_run _ _).2]
    have hno' := hno rfl
    cases hv : (r.authority.question q ((r.caches.lookup q).act s).state).value with
    | error e => exact ⟨rfl, rfl⟩
    | ok o =>
      cases o with
      | none => exact ⟨rfl, rfl⟩
      | some a => exact absurd hv (hno' a)
  | unavailable _ _ =>
    simp only
    rw [run_lift_bind_value, run_lift_bind_state, run_bind_value, run_bind_state,
      (ask_run _ _).1, (ask_run _ _).2, Act.state_report]
    cases (r.authority.question q ((r.caches.lookup q).act s).state).value with
    | error e => exact ⟨rfl, rfl⟩
    | ok o => cases o <;> exact ⟨rfl, rfl⟩

/-- An entry that the cache does not give is asked for, and the answer may be written through. -/
theorem stageOf_missed {e : CacheError} (h : ((r.caches.lookup q).act s).value = .error e) :
    let asked := r.authority.question q ((r.caches.lookup q).act s).state
    ((r.stageOf q).run s).value = (known q.absent asked.value).map (·, false) ∧
      (((r.stageOf q).run s).state = asked.state ∨ ∃ a, asked.value = .ok (some a) ∧
        ((r.stageOf q).run s).state = ((r.caches.save (q.fact a)).act asked.state).state) := by
  intro asked
  by_cases hsaved : e.isNotFound ∧ ∃ a, asked.value = .ok (some a)
  · obtain ⟨hmiss, a, ha⟩ := hsaved
    cases e with
    | notFound rel k =>
      obtain ⟨hvalue, hstate⟩ := stageOf_saved h ha
      rw [hvalue, ha]
      exact ⟨rfl, .inr ⟨a, rfl, hstate⟩⟩
    | unavailable _ _ => cases hmiss
  · obtain ⟨hvalue, hstate⟩ := stageOf_passed h fun hmiss a ha => hsaved ⟨hmiss, a, ha⟩
    exact ⟨hvalue, .inl hstate⟩

end Resolver

end AccessCache
