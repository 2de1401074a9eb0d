import AccessCache.Proofs.Same

/-!
# Exchanges

Caches and authorities that write down what is asked of them and what they answer. This makes no
difference to those who ask (`Resolver.recorded_same`, `Invalidator.apply_recorded`), so which
calls a walk or a change makes, and in which order, can be read from what was written down.
-/

namespace AccessCache

variable {σ τ α β ε : Type}

/-- A call on the caches or a question to the authority, with the answer. -/
inductive Exchange where
  | lookup (query : Query) (answer : Except CacheError (Id query.noun))
  | edit (edit : Edit) (answer : Except CacheError Unit)
  | memberships (member : MemberId) (answer : Except CacheError GroupSet)
  | question (query : Query) (answer : Answer (Id query.noun))

namespace Exchange

/-- The query of a lookup. -/
def lookup? : Exchange → Option Query
  | lookup q _ => some q
  | _ => none

def isQuestion : Exchange → Bool
  | question .. => true
  | _ => false

def errorOf : Except CacheError α → Option CacheError
  | .ok _ => none
  | .error e => some e

/-- The error of a call that failed. -/
def error? : Exchange → Option CacheError
  | lookup _ answer => errorOf answer
  | edit _ answer => errorOf answer
  | memberships _ answer => errorOf answer
  | question .. => none

end Exchange

/-! ## Protocols -/

/-- A relation between exchanges and what they come to. -/
abbrev Protocol (ε α : Type) := List Exchange → Except ε α → Prop

/-- One protocol after the other; a failure is the end. -/
inductive Protocol.Then (P : Protocol ε α) (Q : α → Protocol ε β) : Protocol ε β
  | failed {xs e} : P xs (.error e) → Then P Q xs (.error e)
  | next {xs ys a r} : P xs (.ok a) → Q a ys r → Then P Q (xs ++ ys) r

theorem Protocol.Then.exists_of_ok {P : Protocol ε α} {Q : α → Protocol ε β} {xs : List Exchange}
    {b : β} (h : Then P Q xs (.ok b)) :
    ∃ ys a zs, xs = ys ++ zs ∧ P ys (.ok a) ∧ Q a zs (.ok b) := by
  cases h with
  | next hP hQ => exact ⟨_, _, _, rfl, hP, hQ⟩

/-! ## Recording -/

/-- A state with the exchanges so far. -/
structure Recorded (σ : Type) where
  state : σ
  exchanges : List Exchange := []

/-- Writes down what an act comes to. -/
def Act.recorded (note : α → Exchange) (x : Act σ α) : Act (Recorded σ) α := fun s =>
  let r := x s.state
  ⟨r.value, ⟨r.state, s.exchanges ++ [note r.value]⟩, r.journal⟩

def Call.recorded (note : Except CacheError α → Exchange) (c : Call σ α) : Call (Recorded σ) α :=
  ⟨fun s => c.wait s.state, c.act.recorded note⟩

def LinkCache.recorded {c p : Noun} (save : Id c → Id p → Edit)
    (resolve : Id c → Except CacheError (Id p) → Exchange) (remove : Id c → Edit)
    (cache : LinkCache σ c p) : LinkCache (Recorded σ) c p where
  save child parent := (cache.save child parent).recorded (.edit (save child parent))
  resolve child := (cache.resolve child).recorded (resolve child)
  remove child := (cache.remove child).recorded (.edit (remove child))
  statistics s := cache.statistics s.state

/-- Caches whose calls are written down. -/
def Caches.recorded (c : Caches σ) : Caches (Recorded σ) where
  credentials := {
    save k d := (c.credentials.save k d).recorded (.edit (.save (.credential k d)))
    resolve k := (c.credentials.resolve k).recorded (.lookup (.credential k))
    remove d := (c.credentials.remove d).recorded (.edit (.remove (.credentials d)))
    statistics s := c.credentials.statistics s.state }
  deviceGroups := c.deviceGroups.recorded (fun d g => .save (.deviceGroup d g))
    (fun d => .lookup (.deviceGroup d)) fun d => .remove (.deviceGroup d)
  profileGroups := c.profileGroups.recorded (fun p g => .save (.profileGroup p g))
    (fun p => .lookup (.profileGroup p)) fun p => .remove (.profileGroup p)
  groupOrgs := c.groupOrgs.recorded (fun g o => .save (.groupOrg g o))
    (fun g => .lookup (.groupOrg g)) fun g => .remove (.groupOrg g)
  roles := {
    save k r := (c.roles.save k r).recorded (.edit (.save (.role k r)))
    resolve k := (c.roles.resolve k).recorded (.lookup (.role k))
    remove k := (c.roles.remove k).recorded (.edit (.remove (.role k)))
    membershipsOf m := (c.roles.membershipsOf m).recorded (.memberships m)
    statistics s := c.roles.statistics s.state }

/-- An authority whose questions are written down. -/
def Authority.recorded (a : Authority σ) : Authority (Recorded σ) where
  deviceOfKey k := (a.deviceOfKey k).recorded (.question (.credential k))
  groupOfDevice d := (a.groupOfDevice d).recorded (.question (.deviceGroup d))
  groupOfProfile p := (a.groupOfProfile p).recorded (.question (.profileGroup p))
  orgOfGroup g := (a.orgOfGroup g).recorded (.question (.groupOrg g))
  roleOf k := (a.roleOf k).recorded (.question (.role k))

def Resolver.recorded (r : Resolver σ) : Resolver (Recorded σ) :=
  ⟨r.caches.recorded, r.authority.recorded⟩

def Invalidator.recorded (i : Invalidator σ) : Invalidator (Recorded σ) :=
  ⟨i.caches.recorded, i.tour⟩

/-! ## What is written down -/

namespace Caches

variable (c : Caches σ)

theorem lookup_recorded (q : Query) :
    c.recorded.lookup q = (c.lookup q).recorded (.lookup q) := by
  cases q <;> rfl

theorem edit_recorded (e : Edit) : c.recorded.edit e = (c.edit e).recorded (.edit e) := by
  rcases e with f | x
  · cases f <;> rfl
  · cases x <;> rfl

end Caches

theorem Authority.question_recorded (a : Authority σ) (q : Query) :
    a.recorded.question q = (a.question q).recorded (.question q) := by
  cases q <;> rfl

namespace Resolver

variable (r : Resolver σ) (q : Query) (s : Recorded σ)

theorem lookup_recorded : (r.recorded.caches.lookup q).act s =
    let o := (r.caches.lookup q).act s.state
    ⟨o.value, ⟨o.state, s.exchanges ++ [.lookup q o.value]⟩, o.journal⟩ :=
  congrFun (congrArg Call.act (r.caches.lookup_recorded q)) s

theorem question_recorded : r.recorded.authority.question q s =
    let o := r.authority.question q s.state
    ⟨o.value, ⟨o.state, s.exchanges ++ [.question q o.value]⟩, o.journal⟩ :=
  congrFun (r.authority.question_recorded q) s

end Resolver

theorem Act.recorded_same (note : α → Exchange) (x : Act σ α) :
    Act.Same (fun (s : Recorded σ) t => s.state = t) (x.recorded note) x := by
  rintro s _ rfl
  exact ⟨rfl, rfl, rfl⟩

/-- Caches behave alike whether their calls are written down or not. -/
theorem Caches.recorded_same (c : Caches σ) :
    Caches.Same (fun (s : Recorded σ) t => s.state = t) (fun _ => True) c.recorded c where
  edit e _ := c.edit_recorded e ▸ Act.recorded_same _ _
  lookup q := c.lookup_recorded q ▸ Act.recorded_same _ _
  memberships _ := Act.recorded_same _ _
  statistics := by
    rintro s _ rfl
    rfl

theorem Resolver.recorded_same (r : Resolver σ) :
    Resolver.Same (fun (s : Recorded σ) t => s.state = t) (fun _ => True) r.recorded r where
  caches := r.caches.recorded_same
  question q := r.authority.question_recorded q ▸ Act.recorded_same _ _

theorem Invalidator.apply_recorded (i : Invalidator σ) (x : Change) (s : σ) :
    let o := (i.apply x).run s
    let o' := (i.recorded.apply x).run ⟨s, []⟩
    o'.value = o.value ∧ o'.journal = o.journal ∧ o'.state.state = o.state :=
  i.caches.recorded_same.apply i.tour (fun _ _ => trivial) ⟨s, []⟩ s rfl

end AccessCache
