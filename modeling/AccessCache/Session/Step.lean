import AccessCache.Change.Apply
import AccessCache.Expectation
import AccessCache.Fact
import AccessCache.Hierarchy
import AccessCache.Session.World

/-!
# Sessions

A session takes steps in a world: calls on single caches, changes, requests, mutations of the
authority, and interference from outside. A step has an answer, and after it the statistics of the
caches, the questions put to the authority so far and the journal of the step can be seen.
-/

namespace AccessCache.Session

/-! ## Steps -/

/-- A change of the registry. -/
inductive Mutation where
  | addDevice (key : CredentialKey) (device : DeviceId) (group : GroupId)
  | removeDevice (device : DeviceId)
  | moveDevice (device : DeviceId) (group : GroupId)
  | addProfile (profile : ProfileId) (group : GroupId)
  | addGroup (group : GroupId) (org : OrgId)
  | assignRole (key : RoleKey) (role : Role)
  | revokeRole (key : RoleKey)
  | setOffline (offline : Bool)

inductive Step where
  | save (fact : Fact)
  | resolve (query : Query)
  | remove (removal : Removal)
  | memberships (member : MemberId)
  | statistics
  | apply (change : Change)
  | applyAll (changes : List Change)
  | access (request : AccessRequest)
  /-- One stage of the walk. -/
  | stage (query : Query)
  | mutate (mutation : Mutation)
  | seed (hierarchy : Hierarchy)
  | register (hierarchy : Hierarchy)
  | delay (relation : Relation) (methods : List Method) (milliseconds : Nat)
  | fault (relation : Relation) (methods : List Method) (fault : Fault)
  /-- Ends all interference. -/
  | clear
  | reopen
  /-- The size of each table, where the tables are at hand. -/
  | sizes
  /-- All records of a store. -/
  | dump (relation : Relation)
  | rawPut (relation : Relation) (database : String) (key value : Bytes)
  | rawDelete (relation : Relation) (database : String) (key : Bytes)
  | expectEmpty
  | expectNotFound (relation : Relation) (query : Query)
  | expectUnavailable (relation : Relation) (query : Query)

/-- How many changes a step applies. -/
def Step.turns : Step → Nat
  | .apply _ => 1
  | .applyAll cs => cs.length
  | _ => 0

inductive Answer where
  | done
  | text (s : String)
  | staged (value : String) (hit : Bool)
  | groups (groups : GroupSet)
  | statistics (stats : List (Relation × Statistics))
  | context (context : AccessContext)
  | contents (databases : List (String × List (Bytes × Bytes)))
  | cacheFailed (error : CacheError)
  | accessFailed (error : AccessError)
  | expectationFailed (message : String)
  | sizes (sizes : List Nat)
  /-- There is no such database. -/
  | noDatabase
  /-- The tables are not at hand. -/
  | noSizes

namespace Answer

def ofCache {α : Type} (f : α → Answer) : Except CacheError α → Answer
  | .ok a => f a
  | .error e => cacheFailed e

def ofAccess {α : Type} (f : α → Answer) : Except AccessError α → Answer
  | .ok a => f a
  | .error e => accessFailed e

def ofExpectation : Except String Unit → Answer
  | .ok () => done
  | .error m => expectationFailed m

end Answer

/-! ## Taking a step -/

/-- A backend in a world, with the deadline of every call. -/
structure Deployment where
  backend : Backend
  deadline : Option Duration := none

namespace Deployment

variable (d : Deployment)

abbrev World := AccessCache.World d.backend.State

def caches : Caches d.World := d.backend.caches.inWorld d.deadline

def resolver : Resolver d.World := ⟨d.caches, Registry.authority World.registryPart⟩

def invalidator : Invalidator d.World := ⟨d.caches, d.backend.tour⟩

def start : d.World := { tables := d.backend.fresh }

/-- The text that a cache has for a key. -/
def resolve (q : Query) : Act d.World (Except CacheError String) :=
  (Except.map Id.text) <$> (d.caches.lookup q).act

/-- The text that a stage of the walk finds, and whether the cache had it. -/
def walk : Query → Resolver.Walk d.World (String × Bool)
  | .credential k => (fun r => (r.1.text, r.2)) <$> d.resolver.identify k
  | .deviceGroup e => (fun r => (r.1.text, r.2)) <$> d.resolver.deviceGroup e
  | .profileGroup p => (fun r => (r.1.text, r.2)) <$> d.resolver.profileGroup p
  | .groupOrg g => (fun r => (r.1.text, r.2)) <$> d.resolver.groupOrg g
  | .role k => (fun r => (r.1.text, r.2)) <$> d.resolver.role k.group k.member

/-- The database of this name in the store of a relation. -/
def database? (r : Relation) (name : String) : Option (Part d.World Disk.Database) :=
  ((d.backend.databases r).lookup name).map fun p => p.comp World.tablesPart

/-- Changes a part of the world. -/
def change {β : Type} (p : Part d.World β) (f : β → β) : Act d.World Answer := do
  let w ← Act.observe
  Act.replace (p.set (f (p.get w)) w)
  pure .done

end Deployment

def Mutation.run : Mutation → Registry → Registry
  | addDevice k d g => Registry.addDevice k d g
  | removeDevice d => Registry.removeDevice d
  | moveDevice d g => Registry.moveDevice d g
  | addProfile p g => Registry.addProfile p g
  | addGroup g o => Registry.addGroup g o
  | assignRole k r => Registry.assignRole k r
  | revokeRole k => Registry.revokeRole k
  | setOffline b => fun r => { r with offline := b }

namespace Deployment

variable (d : Deployment)

/-- The act of a step and its answer. -/
def act : Step → Act d.World Answer
  | .save f => .ofCache (fun _ => .done) <$> (d.caches.save f).act
  | .resolve q => .ofCache .text <$> d.resolve q
  | .remove x => .ofCache (fun _ => .done) <$> (d.caches.remove x).act
  | .memberships m => .ofCache .groups <$> (d.caches.roles.membershipsOf m).act
  | .statistics => do pure (.statistics (d.caches.statistics (← Act.observe)))
  | .apply c => .ofCache (fun _ => .done) <$> (d.invalidator.apply c).run
  | .applyAll cs => .ofCache (fun _ => .done) <$> (d.invalidator.applyAll cs).run
  | .access q => .ofAccess .context <$> (d.resolver.resolve q).run
  | .stage q => .ofAccess (fun r => .staged r.1 r.2) <$> (d.walk q).run
  | .mutate m => d.change World.registryPart m.run
  | .seed h => .ofCache (fun _ => .done) <$> (h.seed d.caches).run
  | .register h => d.change World.registryPart h.register
  | .delay r ms t => d.change World.planPart (·.withDelay r ms t)
  | .fault r ms f => d.change World.planPart (·.withFault r ms (some f))
  | .clear => d.change World.planPart fun _ => .clear
  | .reopen => fun w =>
    ⟨.done, { w with tables := d.backend.reopened w.tables }, d.backend.opening⟩
  | .sizes => do
    let w ← Act.observe
    match d.backend.sizes w.tables with
    | none => pure .noSizes
    | some ns => pure (.sizes ns)
  | .dump r => do
    let w ← Act.observe
    match d.backend.databases r with
    | [] => pure .noDatabase
    | dbs => pure (.contents (dbs.map fun e => (e.1, (e.2.get w.tables).toList)))
  | .rawPut r name key value =>
    match d.database? r name with
    | none => pure .noDatabase
    | some p => d.change p (·.insert key value)
  | .rawDelete r name key =>
    match d.database? r name with
    | none => pure .noDatabase
    | some p => d.change p (·.erase key)
  | .expectEmpty => do
    pure (.ofExpectation (Expect.empty (d.caches.statistics (← Act.observe))))
  | .expectNotFound r q => (.ofExpectation ∘ Expect.notFound r) <$> d.resolve q
  | .expectUnavailable r q => (.ofExpectation ∘ Expect.unavailable r) <$> d.resolve q

/-! ## Running -/

/-- What can be seen after a step. -/
structure Report where
  answer : Answer
  statistics : List (Relation × Statistics)
  /-- The questions put to the authority so far. -/
  lookups : Nat
  journal : List Entry

/-- Takes one step. -/
def take (step : Step) (w : d.World) : Report × d.World :=
  let r := d.act step w
  (⟨r.value, d.caches.statistics r.state, r.state.registry.lookups, r.journal⟩, r.state)

/-- What is left of the tour after a step. -/
def after (step : Step) : Deployment :=
  { d with backend := { d.backend with tour := d.backend.tour.after step.turns } }

end Deployment

/-- Takes all steps, one after the other. -/
def Deployment.run (d : Deployment) : List Step → d.World → List Report
  | [], _ => []
  | step :: steps, w => (d.take step w).1 :: (d.after step).run steps (d.take step w).2

end AccessCache.Session
