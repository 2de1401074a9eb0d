import AccessCache.Cache.Basic

/-!
# Caches over tables

A cache keeps a table and counts its lookups. Every operation that succeeds leaves one entry in
the journal, membership queries apart; one that fails leaves the table and the counters as they
were.
-/

namespace AccessCache

variable {τ α : Type}

/-- A table and the counters of its cache. -/
structure Counted (τ : Type) where
  table : τ
  counters : Counters := {}

namespace Counted

/-- Reports that the store failed, for the relation. -/
def failed (r : Relation) (e : StoreError) : Act (Counted τ) (Except CacheError α) := do
  Act.report (.storeFailed r e)
  pure (.error (.unavailable r (.store e)))

/-- Looks an entry up, counts and reports the lookup. -/
def lookup (r : Relation) (key : String) (entry : Bool → Entry)
    (find : τ → Except StoreError (Option α)) : Call (Counted τ) α := .now do
  let s ← Act.observe
  match find s.table with
  | .error e => failed r e
  | .ok found =>
    Act.replace { s with counters := s.counters.record found.isSome }
    Act.report (entry found.isSome)
    match found with
    | some a => pure (.ok a)
    | none => pure (.error (.notFound r key))

/-- Changes the table and reports what the change says of itself. -/
def change (r : Relation) (entry : α → Entry) (f : τ → Except StoreError (α × τ)) :
    Call (Counted τ) Unit := .now do
  let s ← Act.observe
  match f s.table with
  | .error e => failed r e
  | .ok (a, t) =>
    Act.replace { s with table := t }
    Act.report (entry a)
    pure (.ok ())

/-- Asks the table without counting. -/
def query (r : Relation) (f : τ → Except StoreError α) : Call (Counted τ) α := .now do
  let s ← Act.observe
  match f s.table with
  | .error e => failed r e
  | .ok a => pure (.ok a)

def statistics (size : τ → Nat) (s : Counted τ) : Statistics :=
  s.counters.statistics (size s.table)

end Counted

open Counted

def CredentialTable.cache (t : CredentialTable τ) : CredentialCache (Counted τ) where
  save k d := change .credential (fun _ => .credentialSaved d) fun s => (((), ·)) <$> t.save k d s
  resolve k := lookup .credential CredentialKey.placeholder .credentialLookedUp (t.find k)
  remove d := change .credential (.credentialsRemoved d) (t.remove d)
  statistics := Counted.statistics t.size

def LinkTable.cache {c p : Noun} (r : Relation) (t : LinkTable τ c p) :
    LinkCache (Counted τ) c p where
  save child parent :=
    change r (fun _ => .linkSaved r child.text parent.text) fun s =>
      (((), ·)) <$> t.save child parent s
  resolve child := lookup r child.text (.linkLookedUp r child.text) (t.find child)
  remove child := change r (.linkRemoved r child.text) (t.remove child)
  statistics := Counted.statistics t.size

def RoleTable.cache (t : RoleTable τ) : RoleCache (Counted τ) where
  save k role := change .role (fun _ => .roleSaved k role) fun s => (((), ·)) <$> t.save k role s
  resolve k := lookup .role k.text (.roleLookedUp k) (t.find k)
  remove k := change .role (.roleRemoved k) (t.remove k)
  membershipsOf m := query .role (t.memberships m)
  statistics := Counted.statistics t.size

/-! ## Five tables -/

/-- The tables of the five caches: `C` holds credentials, `L c p` links of `c` to `p`, and `R`
roles. -/
structure Tables (C : Type) (L : Noun → Noun → Type) (R : Type) where
  credentials : Counted C
  deviceGroups : Counted (L .device .group)
  profileGroups : Counted (L .profile .group)
  groupOrgs : Counted (L .group .org)
  roles : Counted R

namespace Tables

variable {C R : Type} {L : Noun → Noun → Type}

def credentialPart : Part (Tables C L R) (Counted C) where
  get s := s.credentials
  set t s := { s with credentials := t }

def devicePart : Part (Tables C L R) (Counted (L .device .group)) where
  get s := s.deviceGroups
  set t s := { s with deviceGroups := t }

def profilePart : Part (Tables C L R) (Counted (L .profile .group)) where
  get s := s.profileGroups
  set t s := { s with profileGroups := t }

def orgPart : Part (Tables C L R) (Counted (L .group .org)) where
  get s := s.groupOrgs
  set t s := { s with groupOrgs := t }

def rolePart : Part (Tables C L R) (Counted R) where
  get s := s.roles
  set t s := { s with roles := t }

/-- The five caches over these tables. -/
def caches (credentials : CredentialTable C) (links : (c p : Noun) → LinkTable (L c p) c p)
    (roles : RoleTable R) : Caches (Tables C L R) where
  credentials := credentials.cache.through (.ofPart credentialPart)
  deviceGroups := ((links _ _).cache .deviceGroup).through (.ofPart devicePart) .deviceGroup
  profileGroups := ((links _ _).cache .profileGroup).through (.ofPart profilePart) .profileGroup
  groupOrgs := ((links _ _).cache .groupOrg).through (.ofPart orgPart) .groupOrg
  roles := roles.cache.through (.ofPart rolePart)

/-- The same tables under counters that start again. -/
def recounted (s : Tables C L R) : Tables C L R :=
  ⟨⟨s.credentials.table, {}⟩, ⟨s.deviceGroups.table, {}⟩, ⟨s.profileGroups.table, {}⟩,
    ⟨s.groupOrgs.table, {}⟩, ⟨s.roles.table, {}⟩⟩

end Tables

end AccessCache
