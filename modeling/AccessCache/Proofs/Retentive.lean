import AccessCache.Proofs.Session.World
import AccessCache.Proofs.Steady

/-!
# Retentive caches

What may be relied on in any state, also in one that no calls lead to: a lookup answers what the
table has and changes nothing but counters, what was saved is found directly afterwards, and the
caches of other relations do not notice (`Tables.retentive`). So after any lookups the caches
answer as before them.
-/

namespace AccessCache

variable {σ τ α : Type}

/-! ## What lookups leave alone -/

namespace Caches

variable (c : Caches σ)

/-- Nothing that the caches answer or hold differs, counters apart. -/
structure SameEntries (s t : σ) : Prop where
  lookup : ∀ q, ((c.lookup q).act t).value = ((c.lookup q).act s).value
  memberships : ∀ m,
    ((c.roles.membershipsOf m).act t).value = ((c.roles.membershipsOf m).act s).value
  entries : ∀ r, (c.statisticsOf t r).entries = (c.statisticsOf s r).entries

/-- The state after lookups. -/
def looked (qs : List Query) (s : σ) : σ := qs.foldl (fun s q => ((c.lookup q).act s).state) s

@[simp] theorem looked_nil (s : σ) : c.looked [] s = s := rfl

@[simp] theorem looked_cons (q : Query) (qs : List Query) (s : σ) :
    c.looked (q :: qs) s = c.looked qs ((c.lookup q).act s).state := rfl

theorem looked_append (qs qs' : List Query) (s : σ) :
    c.looked (qs ++ qs') s = c.looked qs' (c.looked qs s) := List.foldl_append

structure Retentive : Prop where
  lookup : ∀ q s, c.SameEntries s ((c.lookup q).act s).state
  counters : ∀ {q s a}, ((c.lookup q).act s).value = .ok a → ∀ r,
    c.counters ((c.lookup q).act s).state r =
      if r = q.relation then (c.counters s r).record true else c.counters s r
  saved : ∀ {q s} {a : Id q.noun}, ((c.save (q.fact a)).act s).value = .ok () →
    ((c.lookup q).act ((c.save (q.fact a)).act s).state).value = .ok a
  others : ∀ {q q' : Query} (a : Id q.noun) (s), q'.relation ≠ q.relation →
    ((c.lookup q').act ((c.save (q.fact a)).act s).state).value = ((c.lookup q').act s).value
  unavailable : ∀ {e s err}, ((c.edit e).act s).value = .error err →
    ∃ o, err = .unavailable e.relation (.store o)

variable {c}

theorem SameEntries.refl (s : σ) : c.SameEntries s s := ⟨fun _ => rfl, fun _ => rfl, fun _ => rfl⟩

theorem SameEntries.trans {s t u : σ} (h : c.SameEntries s t) (h' : c.SameEntries t u) :
    c.SameEntries s u where
  lookup q := (h'.lookup q).trans (h.lookup q)
  memberships m := (h'.memberships m).trans (h.memberships m)
  entries r := (h'.entries r).trans (h.entries r)

theorem SameEntries.facts {s t : σ} (h : c.SameEntries s t) : c.facts t = c.facts s := by
  funext q
  unfold Caches.facts
  rw [h.lookup]

namespace Retentive

variable (h : c.Retentive)

include h

theorem looked_same (qs : List Query) (s : σ) : c.SameEntries s (c.looked qs s) := by
  induction qs generalizing s with
  | nil => exact .refl s
  | cons q qs ih => exact (h.lookup q s).trans (ih _)

end Retentive

end Caches

/-! ## Counted tables -/

namespace Counted

/-- What a lookup answers to what the table has. -/
def reply (r : Relation) (key : String) : Except StoreError (Option α) → Except CacheError α
  | .ok (some a) => .ok a
  | .ok none => .error (.notFound r key)
  | .error e => .error (.unavailable r (.store e))

/-- The lookup is counted, unless the store failed. -/
def noted (s : Counted τ) : Except StoreError (Option α) → Counted τ
  | .ok found => { s with counters := s.counters.record found.isSome }
  | .error _ => s

variable {r : Relation} {s : Counted τ}

theorem lookup_eq (key : String) (entry : Bool → Entry) (find : τ → Except StoreError (Option α)) :
    ((lookup r key entry find).act s).value = reply r key (find s.table) ∧
      ((lookup r key entry find).act s).state = s.noted (find s.table) := by
  cases hfind : find s.table with
  | error e => simp [lookup, Call.now, failed, hfind, reply, noted]
  | ok found =>
    obtain ⟨hvalue, hstate⟩ := lookup_act r key entry hfind
    rw [hvalue, hstate]
    cases found <;> exact ⟨rfl, rfl⟩

theorem reply_eq_ok_iff {key : String} {x : Except StoreError (Option α)} {a : α} :
    reply r key x = .ok a ↔ x = .ok (some a) := by
  rcases x with e | (_ | b) <;> simp [reply]

theorem reply_eq_notFound_iff {key : String} {x : Except StoreError (Option α)} :
    reply r key x = .error (.notFound r key) ↔ x = .ok none := by
  rcases x with e | (_ | b) <;> simp [reply]

theorem reply_eq_unavailable_iff {key : String} {x : Except StoreError (Option α)} {r' : Relation}
    {o : Outage} :
    reply r key x = .error (.unavailable r' o) ↔ r' = r ∧ ∃ e, o = .store e ∧ x = .error e := by
  rcases x with e | (_ | b)
  · constructor
    · rintro ⟨⟩
      exact ⟨rfl, e, rfl, rfl⟩
    · rintro ⟨rfl, _, rfl, ⟨⟩⟩
      rfl
  · simp [reply]
  · simp [reply]

theorem query_value (r : Relation) (f : τ → Except StoreError α) (s : Counted τ) :
    ((query r f).act s).value = (f s.table).mapError fun e => .unavailable r (.store e) := by
  cases hf : f s.table with
  | ok a => exact (query_act r hf).1
  | error e => simp [query, Call.now, failed, hf, Except.mapError]

/-- A change of a table fails exactly if the table fails. -/
theorem change_on_error_iff {p : Part σ (Counted τ)} {entry : α → Entry}
    {f : τ → Except StoreError (α × τ)} {s : σ} {err : CacheError} :
    (((change r entry f).on p).act s).value = .error err ↔
      ∃ e, err = .unavailable r (.store e) ∧ f (p.get s).table = .error e := by
  show ((change r entry f).act (p.get s)).value = .error err ↔ _
  cases hf : f (p.get s).table with
  | ok at' =>
    obtain ⟨a, t⟩ := at'
    rw [(change_act r entry hf).1]
    simp
  | error e =>
    rw [(change_act_error r entry hf).1]
    simp [eq_comm]

theorem change_on_fails_iff {p : Part σ (Counted τ)} {entry : α → Entry}
    {f : τ → Except StoreError (α × τ)} {s : σ} :
    (∃ err, (((change r entry f).on p).act s).value = .error err) ↔
      ∃ e, f (p.get s).table = .error e := by
  simp only [change_on_error_iff]
  constructor
  · rintro ⟨_, e, _, he⟩
    exact ⟨e, he⟩
  · rintro ⟨e, he⟩
    exact ⟨_, e, rfl, he⟩

theorem save_on_fails_iff {p : Part σ (Counted τ)} {e : Entry} {save : τ → Except StoreError τ}
    {s : σ} :
    (∃ err, (((change r (fun _ => e) fun t => (((), ·)) <$> save t).on p).act s).value =
      .error err) ↔ ∃ e, save (p.get s).table = .error e := by
  rw [change_on_fails_iff]
  cases save (p.get s).table with
  | ok t => exact iff_of_false nofun nofun
  | error e => exact iff_of_true ⟨e, rfl⟩ ⟨e, rfl⟩

end Counted

/-! ## Tables -/

/-- What was saved is found directly afterwards. -/
def CredentialTable.Keeps (t : CredentialTable τ) : Prop :=
  ∀ {k d s s'}, t.save k d s = .ok s' → t.find k s' = .ok (some d)

def LinkTable.Keeps {c p : Noun} (t : LinkTable τ c p) : Prop :=
  ∀ {k v s s'}, t.save k v s = .ok s' → t.find k s' = .ok (some v)

def RoleTable.Keeps (t : RoleTable τ) : Prop :=
  ∀ {k v s s'}, t.save k v s = .ok s' → t.find k s' = .ok (some v)

namespace Tables

variable {C R : Type} {L : Noun → Noun → Type} {ct : CredentialTable C}
  {lt : (c p : Noun) → LinkTable (L c p) c p} {rt : RoleTable R}

/-- The lookup of `q` is counted, unless the store failed. -/
def noted (s : Tables C L R) (q : Query) : Except StoreError (Option (Id q.noun)) → Tables C L R
  | .ok found => s.counted found.isSome q
  | .error _ => s

variable (s : Tables C L R)

/-- A lookup in one part; `hset` says that counting it there is counting it. -/
theorem lookup_on {τ : Type} {p : Part (Tables C L R) (Counted τ)} {q : Query}
    (entry : Bool → Entry) (look : τ → Except StoreError (Option (Id q.noun)))
    (hset : ∀ x, p.set ((p.get s).noted x) s = s.noted q x) :
    (((Counted.lookup q.relation q.label entry look).on p).act s).value =
        Counted.reply q.relation q.label (look (p.get s).table) ∧
      (((Counted.lookup q.relation q.label entry look).on p).act s).state =
        s.noted q (look (p.get s).table) := by
  obtain ⟨hvalue, hstate⟩ :=
    Counted.lookup_eq (r := q.relation) (s := p.get s) q.label entry look
  exact ⟨hvalue, (congrArg (p.set · s) hstate).trans (hset _)⟩

/-- A lookup answers what the tables have, and is counted unless the store failed. -/
theorem lookup_eq (q : Query) :
    (((caches ct lt rt).lookup q).act s).value =
        Counted.reply q.relation q.label (find ct lt rt s q) ∧
      (((caches ct lt rt).lookup q).act s).state = s.noted q (find ct lt rt s q) := by
  cases q with
  | credential k =>
    exact lookup_on s (p := credentialPart) (q := .credential k) .credentialLookedUp (ct.find k)
      fun x => by cases x <;> rfl
  | deviceGroup d =>
    exact lookup_on s (p := devicePart) (q := .deviceGroup d) (.linkLookedUp .deviceGroup d.text)
      ((lt _ _).find d) fun x => by cases x <;> rfl
  | profileGroup p =>
    exact lookup_on s (p := profilePart) (q := .profileGroup p)
      (.linkLookedUp .profileGroup p.text) ((lt _ _).find p) fun x => by cases x <;> rfl
  | groupOrg g =>
    exact lookup_on s (p := orgPart) (q := .groupOrg g) (.linkLookedUp .groupOrg g.text)
      ((lt _ _).find g) fun x => by cases x <;> rfl
  | role k =>
    exact lookup_on s (p := rolePart) (q := .role k) (.roleLookedUp k) (rt.find k)
      fun x => by cases x <;> rfl

variable (q : Query)

theorem find_counted (found : Bool) (q' : Query) :
    find ct lt rt (s.counted found q) q' = find ct lt rt s q' := by
  cases q <;> cases q' <;> rfl

/-- Counting a lookup changes no answer. -/
theorem sameEntries_counted (found : Bool) :
    (caches ct lt rt).SameEntries s (s.counted found q) where
  lookup q' := by rw [(lookup_eq _ q').1, (lookup_eq s q').1, find_counted]
  memberships m := by
    show ((Counted.query .role (rt.memberships m)).act (s.counted found q).roles).value =
      ((Counted.query .role (rt.memberships m)).act s.roles).value
    have htable : (s.counted found q).roles.table = s.roles.table := by cases q <;> rfl
    rw [Counted.query_value, Counted.query_value, htable]
  entries r := by cases q <;> cases r <;> rfl

variable {s q} in
theorem counters_of_hit {a : Id q.noun} (h : find ct lt rt s q = .ok (some a)) (r : Relation) :
    (caches ct lt rt).counters (((caches ct lt rt).lookup q).act s).state r =
      if r = q.relation then ((caches ct lt rt).counters s r).record true
      else (caches ct lt rt).counters s r := by
  rw [(lookup_eq s q).2, h, counters_eq, counters_eq]
  exact countersOf_counted true q r

variable {s q} in
/-- A save in one part of what is found there afterwards. -/
theorem find_of_save_on {τ : Type} {p : Part (Tables C L R) (Counted τ)} {r : Relation} {e : Entry}
    {save : τ → Except StoreError τ} {a : Id q.noun}
    (hkeeps : ∀ t, save (p.get s).table = .ok t →
      find ct lt rt (p.set { p.get s with table := t } s) q = .ok (some a))
    (h : (((Counted.change r (fun _ => e) fun t => (((), ·)) <$> save t).on p).act s).value =
      .ok ()) :
    find ct lt rt (((Counted.change r (fun _ => e) fun t => (((), ·)) <$> save t).on p).act s).state
      q = .ok (some a) := by
  rcases Counted.change_on r p (fun _ => e) (fun t => (((), ·)) <$> save t) s with
    ⟨_, t, hok, _, hstate⟩ | ⟨⟨err, hfail⟩, _⟩
  · rw [hstate]
    exact hkeeps t (Counted.of_map_unit hok)
  · cases hfail.symm.trans h

variable {s q} in
theorem find_of_saved (hc : ct.Keeps) (hl : ∀ c p, (lt c p).Keeps) (hr : rt.Keeps) {a : Id q.noun}
    (h : (((caches ct lt rt).save (q.fact a)).act s).value = .ok ()) :
    find ct lt rt (((caches ct lt rt).save (q.fact a)).act s).state q = .ok (some a) := by
  cases q with
  | credential k => exact find_of_save_on (p := credentialPart) (fun _ hok => hc hok) h
  | deviceGroup d => exact find_of_save_on (p := devicePart) (fun _ hok => hl _ _ hok) h
  | profileGroup f => exact find_of_save_on (p := profilePart) (fun _ hok => hl _ _ hok) h
  | groupOrg g => exact find_of_save_on (p := orgPart) (fun _ hok => hl _ _ hok) h
  | role k => exact find_of_save_on (p := rolePart) (fun _ hok => hr hok) h

/-- Caches over tables that keep what they are given are retentive. -/
theorem retentive (hc : ct.Keeps) (hl : ∀ c p, (lt c p).Keeps) (hr : rt.Keeps) :
    (caches ct lt rt).Retentive where
  lookup q s := by
    rw [(lookup_eq s q).2]
    cases find ct lt rt s q with
    | ok found => exact sameEntries_counted s q found.isSome
    | error e => exact .refl s
  counters {q s a} h := by
    rw [(lookup_eq s q).1, Counted.reply_eq_ok_iff] at h
    exact counters_of_hit h
  saved {q s a} h := by
    rw [(lookup_eq _ q).1, find_of_saved hc hl hr h]
    rfl
  others {q q'} a s hne := by
    cases q <;> cases q' <;> first | exact absurd rfl hne | rfl
  unavailable {e s err} h := by
    rcases e with f | x
    · cases f <;> exact (Counted.change_on_error_iff.mp h).imp fun _ => And.left
    · cases x <;> exact (Counted.change_on_error_iff.mp h).imp fun _ => And.left

end Tables

/-! ## In memory -/

theorem Memory.retentive : Memory.caches.Retentive := by
  refine Tables.retentive ?_ (fun c p => ?_) ?_
  · rintro k d t _ ⟨⟩
    exact congrArg Except.ok Std.ExtTreeMap.getElem?_insert_self
  · rintro k v t _ ⟨⟩
    exact congrArg Except.ok Std.ExtTreeMap.getElem?_insert_self
  · rintro k v t _ ⟨⟩
    exact congrArg Except.ok Std.ExtTreeMap.getElem?_insert_self

/-! ## On disk -/

namespace Disk

/-- A record that was just written is read back, whatever stood in its place. -/
theorem Database.value?_of_put {κ ν : Type} [Content κ] [Content ν] [Content.Lawful κ]
    [Content.Lawful ν] [DecidableEq κ] {capacity : Option Nat} {db db' : Database} {place : Bytes}
    {k : κ} {v : ν} (h : db.put capacity place (Record.encode ⟨k, v⟩) = .ok db') :
    db'.value? place k = .ok (some v) := by
  rw [eq_insert_of_put h, value?, record?, Std.ExtTreeMap.getElem?_insert_self]
  simp only [Record.decode_encode]
  simp [Option.filter]

/-- A lookup answers what the databases have, and is counted unless they failed. -/
theorem lookup_eq_found (capacity : Option Nat) (s : State) (q : Query) :
    let found :=
      Tables.find (credentialTable capacity) (linkTable capacity) (roleTable capacity) s q
    let o := ((caches capacity).lookup q).act s
    o.value = Counted.reply q.relation q.label found ∧ o.state = Tables.noted s q found :=
  Tables.lookup_eq s q

theorem retentive (capacity : Option Nat) : (caches capacity).Retentive := by
  refine Tables.retentive ?_ (fun c p => ?_) ?_
  · intro k d t t' hsave
    obtain ⟨old, _, hwrite⟩ := Steps.bind_eq_ok_iff.mp hsave
    obtain ⟨keys, hkeys, hwrite⟩ := Steps.bind_eq_ok_iff.mp hwrite
    obtain ⟨devices, _, hpure⟩ := Steps.bind_eq_ok_iff.mp hwrite
    cases hpure
    exact Database.value?_of_put hkeys
  · intro k v t t' hsave
    obtain ⟨links, hput, hpure⟩ := Steps.bind_eq_ok_iff.mp hsave
    cases hpure
    exact Database.value?_of_put hput
  · intro k role t t' hsave
    obtain ⟨assignments, hput, hwrite⟩ := Steps.bind_eq_ok_iff.mp hsave
    obtain ⟨memberships, _, hpure⟩ := Steps.bind_eq_ok_iff.mp hwrite
    cases hpure
    exact Database.value?_of_put hput

end Disk

end AccessCache
