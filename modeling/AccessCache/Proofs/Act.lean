import AccessCache.Act

/-!
# Acts side by side

What an act comes to, part by part, and acts on two states that agree: from related states they
come to related values and to related states again. Journals are left out of account.
-/

namespace AccessCache

variable {σ τ α β α' β' ε : Type}

namespace Act

/-! ## Values and states -/

variable (s : σ)

@[simp] theorem value_pure (a : α) : ((pure a : Act σ α) s).value = a := rfl

@[simp] theorem state_pure (a : α) : ((pure a : Act σ α) s).state = s := rfl

@[simp] theorem value_bind (x : Act σ α) (f : α → Act σ β) :
    ((x >>= f) s).value = (f (x s).value (x s).state).value := rfl

@[simp] theorem state_bind (x : Act σ α) (f : α → Act σ β) :
    ((x >>= f) s).state = (f (x s).value (x s).state).state := rfl

@[simp] theorem value_map (f : α → β) (x : Act σ α) : ((f <$> x) s).value = f (x s).value := rfl

@[simp] theorem state_map (f : α → β) (x : Act σ α) : ((f <$> x) s).state = (x s).state := rfl

@[simp] theorem state_report (e : Entry) : ((report e : Act σ Unit) s).state = s := rfl

@[simp] theorem value_observe : ((observe : Act σ σ) s).value = s := rfl

@[simp] theorem state_observe : ((observe : Act σ σ) s).state = s := rfl

@[simp] theorem state_replace (t : σ) : ((replace t : Act σ Unit) s).state = t := rfl

end Act

/-! ## Steps that may fail -/

/-- A step that may fail: nothing happens after the first failure. -/
theorem run_bind_value (x : ExceptT ε (Act σ) α) (f : α → ExceptT ε (Act σ) β) (s : σ) :
    ((x >>= f).run s).value = match (x.run s).value with
      | .ok a => ((f a).run (x.run s).state).value
      | .error e => .error e := by
  show (ExceptT.bindCont f (x.run s).value (x.run s).state).value = _
  cases (x.run s).value <;> rfl

theorem run_bind_state (x : ExceptT ε (Act σ) α) (f : α → ExceptT ε (Act σ) β) (s : σ) :
    ((x >>= f).run s).state = match (x.run s).value with
      | .ok a => ((f a).run (x.run s).state).state
      | .error _ => (x.run s).state := by
  show (ExceptT.bindCont f (x.run s).value (x.run s).state).state = _
  cases (x.run s).value <;> rfl

theorem run_bind_of_ok {x : ExceptT ε (Act σ) α} {s : σ} {a : α} (h : (x.run s).value = .ok a)
    (f : α → ExceptT ε (Act σ) β) :
    ((x >>= f).run s).value = ((f a).run (x.run s).state).value ∧
      ((x >>= f).run s).state = ((f a).run (x.run s).state).state := by
  rw [run_bind_value, run_bind_state, h]
  exact ⟨rfl, rfl⟩

theorem run_bind_of_error {x : ExceptT ε (Act σ) α} {s : σ} {e : ε}
    (h : (x.run s).value = .error e) (f : α → ExceptT ε (Act σ) β) :
    ((x >>= f).run s).value = .error e ∧ ((x >>= f).run s).state = (x.run s).state := by
  rw [run_bind_value, run_bind_state, h]
  exact ⟨rfl, rfl⟩

theorem run_lift_bind_value (x : Act σ α) (f : α → ExceptT ε (Act σ) β) (s : σ) :
    (((liftM x : ExceptT ε (Act σ) α) >>= f).run s).value =
      ((f (x s).value).run (x s).state).value := rfl

theorem run_lift_bind_state (x : Act σ α) (f : α → ExceptT ε (Act σ) β) (s : σ) :
    (((liftM x : ExceptT ε (Act σ) α) >>= f).run s).state =
      ((f (x s).value).run (x s).state).state := rfl

theorem run_map_value (f : α → β) (x : ExceptT ε (Act σ) α) (s : σ) :
    ((f <$> x).run s).value = (x.run s).value.map f := by
  refine (run_bind_value x (fun a => pure (f a)) s).trans ?_
  cases (x.run s).value <;> rfl

theorem run_map_state (f : α → β) (x : ExceptT ε (Act σ) α) (s : σ) :
    ((f <$> x).run s).state = (x.run s).state := by
  refine (run_bind_state x (fun a => pure (f a)) s).trans ?_
  cases (x.run s).value <;> rfl

/-- Both fail with the same error, or both give values that `P` relates. -/
inductive Matches (P : α → β → Prop) : Except ε α → Except ε β → Prop where
  | ok {a b} : P a b → Matches P (.ok a) (.ok b)
  | error (e) : Matches P (.error e) (.error e)

theorem Matches.eq {a b : Except ε α} (h : Matches Eq a b) : a = b := by
  cases h with
  | ok h => exact congrArg Except.ok h
  | error e => rfl

/-! ## Agreement -/

/-- From states that `R` relates, values that `P` relates and states that `R` relates. -/
def Act.Agree (R : σ → τ → Prop) (P : α → β → Prop) (x : Act σ α) (y : Act τ β) : Prop :=
  ∀ s t, R s t → P (x s).value (y t).value ∧ R (x s).state (y t).state

/-- Agreement of steps that may fail. -/
def Agree (R : σ → τ → Prop) (P : α → β → Prop) (x : ExceptT ε (Act σ) α)
    (y : ExceptT ε (Act τ) β) : Prop :=
  Act.Agree R (Matches P) x.run y.run

variable {R : σ → τ → Prop} {P : α → β → Prop} {Q : α' → β' → Prop}

namespace Act.Agree

theorem map {x : Act σ α} {y : Act τ β} {f : α → α'} {g : β → β'} (h : Act.Agree R P x y)
    (hfg : ∀ a b, P a b → Q (f a) (g b)) : Act.Agree R Q (f <$> x) (g <$> y) := by
  intro s t hst
  obtain ⟨hP, hR⟩ := h s t hst
  exact ⟨hfg _ _ hP, hR⟩

end Act.Agree

namespace Agree

theorem pure {a : α} {b : β} (h : P a b) :
    Agree R P (pure a : ExceptT ε (Act σ) α) (pure b : ExceptT ε (Act τ) β) :=
  fun _ _ hst => ⟨.ok h, hst⟩

theorem throw (e : ε) :
    Agree R P (throw e : ExceptT ε (Act σ) α) (throw e : ExceptT ε (Act τ) β) :=
  fun _ _ hst => ⟨.error e, hst⟩

theorem bind {x : ExceptT ε (Act σ) α} {y : ExceptT ε (Act τ) β}
    {f : α → ExceptT ε (Act σ) α'} {g : β → ExceptT ε (Act τ) β'}
    (h : Agree R P x y) (hfg : ∀ a b, P a b → Agree R Q (f a) (g b)) :
    Agree R Q (x >>= f) (y >>= g) := by
  intro s t hst
  obtain ⟨hP, hR⟩ := h s t hst
  rw [run_bind_value, run_bind_value, run_bind_state, run_bind_state]
  revert hP
  generalize (x.run s).value = a
  generalize (y.run t).value = b
  rintro (hab | e)
  · exact hfg _ _ hab _ _ hR
  · exact ⟨.error e, hR⟩

theorem lift_bind {x : Act σ α} {y : Act τ β}
    {f : α → ExceptT ε (Act σ) α'} {g : β → ExceptT ε (Act τ) β'}
    (h : Act.Agree R P x y) (hfg : ∀ a b, P a b → Agree R Q (f a) (g b)) :
    Agree R Q (liftM x >>= f) (liftM y >>= g) := by
  intro s t hst
  obtain ⟨hP, hR⟩ := h s t hst
  exact hfg _ _ hP _ _ hR

theorem map {x : ExceptT ε (Act σ) α} {y : ExceptT ε (Act τ) β} {f : α → α'} {g : β → β'}
    (h : Agree R P x y) (hfg : ∀ a b, P a b → Q (f a) (g b)) : Agree R Q (f <$> x) (g <$> y) := by
  rw [map_eq_pure_bind, map_eq_pure_bind]
  exact h.bind fun a b hab => .pure (hfg a b hab)

/-- Reports make no difference. -/
theorem report {x : ExceptT ε (Act σ) α} {y : ExceptT ε (Act τ) β} (e e' : Entry)
    (h : Agree R P x y) :
    Agree R P ((liftM (Act.report e : Act σ Unit) : ExceptT ε (Act σ) Unit) >>= fun _ => x)
      ((liftM (Act.report e' : Act τ Unit) : ExceptT ε (Act τ) Unit) >>= fun _ => y) :=
  fun s t hst => h s t hst

theorem ite {p : Prop} [Decidable p] {x x' : ExceptT ε (Act σ) α} {y y' : ExceptT ε (Act τ) β}
    (h : Agree R P x y) (h' : Agree R P x' y') :
    Agree R P (if p then x else x') (if p then y else y') := by
  split
  · exact h
  · exact h'

end Agree

end AccessCache
